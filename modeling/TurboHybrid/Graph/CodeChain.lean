/-
**The writes of an insert, and the code tuples.**

Each node has a code tuple in a chain of pages that the build starts and each insert extends by one
tuple. An insert holds the update lock. It adds itself to the adjacency tuples of its neighbours,
appends its code tuple and its adjacency tuples, and publishes the new node count last; every write
is one that an error or a crash may be behind.

* `CodeSound`: the code tuples are those of the nodes in order, on full pages;
* `codeSound_step`: every step keeps this but the failure of an insert that has written its code
  tuple behind others.
-/
import TurboHybrid.Library.PackedChain
import TurboHybrid.Library.Transition
import Mathlib.Data.List.Induction

namespace TurboHybrid.CodeChain

open TurboHybrid.Library

variable {Body : Type}

/-! ### Code pages -/

inductive CodeKind where
  | quantCode
  | other
  deriving DecidableEq

/-- A code tuple: its type, its node, and what a scan loads for the node. -/
structure CodeTuple (Body : Type) where
  type : Nat
  nodeId : Nat
  body : Body

abbrev CodePage (Body : Type) := Page CodeKind (CodeTuple Body)

def codeTupleType : Nat := 0x51

def codeTuple (nodeId : Nat) (body : Body) : CodeTuple Body := ⟨codeTupleType, nodeId, body⟩

/-- The size of a tuple with the bytes behind its header. -/
def codeTupleSize (dataBytes : Nat) : Nat := (36 + dataBytes + 7) / 8 * 8

def usableSpace : Nat := 8192 - 24 - 8

def tuplesPerPage (tupleSize : Nat) : Nat := max 1 (usableSpace / (tupleSize + 4))

def pageCount (nodeCount tuplesPerPage : Nat) : Nat :=
  if nodeCount = 0 then 0 else (nodeCount + tuplesPerPage - 1) / tuplesPerPage

/-- The free space behind tuples of one size, less the pointer of the next one. -/
def pageFreeSpace (tupleSize count : Nat) : Nat := usableSpace - count * (tupleSize + 4) - 4

def codeFits (tupleSize : Nat) (items : List (CodeTuple Body)) (_ : CodeTuple Body) : Bool :=
  decide (tupleSize ≤ pageFreeSpace tupleSize items.length)

/-! ### The build -/

def writeCodeTuples (tupleSize nodeId : Nat) (pages : List (CodePage Body)) (start buf : Option Nat) :
    List Body → Except ChainError (List (CodePage Body) × Option Nat)
  | [] => .ok (pages, start)
  | body :: bodies =>
    match appendTuple (codeFits tupleSize) false .quantCode pages buf (codeTuple nodeId body) with
    | .error refused => .error refused.error
    | .ok result =>
      writeCodeTuples tupleSize (nodeId + 1) result.pages (some (start.getD result.start))
        (some result.insertBlock) bodies

def writeCodePages (tupleSize : Nat) (pages : List (CodePage Body)) (bodies : List Body) :
    Except ChainError (List (CodePage Body) × Option Nat) :=
  writeCodeTuples tupleSize 0 pages none none bodies

/-! ### Inserts -/

/-- A neighbour in an adjacency tuple: the node id that is stored, and the vector it was written
for. -/
structure Neighbor (Body : Type) where
  id : Nat
  vector : Option Body

structure AdjacencyTuple (Body : Type) where
  nodeId : Nat
  level : Nat
  neighbors : List (Neighbor Body)

structure AppendCursor where
  index : Nat
  start : Nat
  tail : Nat

/-- An insert under way: the neighbours that the search selected for each level, and what is
written. The adjacency tuples of a chain that it starts itself are its own. -/
structure Insert (Body : Type) where
  backend : Nat
  newNodeId : Nat
  body : Body
  selected : List (List Nat)
  codeStart : Option Nat
  codeWritten : Bool
  ownChain : List (AdjacencyTuple Body)
  levelsWritten : Nat

/-- The relation, the metapage's fields, the adjacency tuples of the chain it names, and the
cursors of the backends. -/
structure IndexState (Body : Type) where
  pages : List (CodePage Body)
  codeStart : Option Nat
  nodeCount : Nat
  adjacency : List (AdjacencyTuple Body)
  adjStarted : Bool
  cursors : Nat → Option AppendCursor
  writing : Option (Insert Body)

def codeTuples (pages : List (CodePage Body)) (start : Option Nat) : List (CodeTuple Body) :=
  match readChain .quantCode pages pages.length start with
  | .ok tuples => tuples
  | .error _ => []

/-- The vector that a scan loads for a node id: that of the last tuple. -/
def vectorOf (pages : List (CodePage Body)) (start : Option Nat) (id : Nat) : Option Body :=
  ((codeTuples pages start).filter fun tuple => tuple.nodeId == id).getLast?.map CodeTuple.body

inductive InsertAction (Body : Type) where
  | start (backend : Nat) (body : Body) (selected : List (List Nat))
  | reciprocal (position : Nat) (kept : List Nat)
  | code
  | adjacency
  | publish
  | fail
  | repair (position : Nat) (kept : List Nat)
  | turn (backend : Nat) (cursor : AppendCursor)
  | leave (backend : Nat)
  | extend (page : CodePage Body)
  | rewrite (block : Nat) (page : CodePage Body)

section Steps

variable (index tupleSize : Nat)

/-- The append starts at the cursor if that is of the same chain. -/
def appendPosition (cursor : Option AppendCursor) (start : Option Nat) : Option Nat :=
  match cursor with
  | some cursor => if cursor.index = index ∧ some cursor.start = start then some cursor.tail else start
  | none => start

/-- The neighbours of a tuple that a reciprocal update keeps, with the new node. -/
def keptNeighbors (old : List (Neighbor Body)) (newNodeId : Nat) (body : Body) (kept : List Nat) :
    List (Neighbor Body) :=
  kept.filterMap fun id =>
    if id = newNodeId then some ⟨newNodeId, some body⟩ else old.find? fun neighbor => neighbor.id == id

def insertStep (state : IndexState Body) : InsertAction Body → Option (IndexState Body)
  | .start backend body selected =>
    if state.writing.isNone ∧ selected ≠ [] ∧
        (∀ ids ∈ selected, ∀ id ∈ ids, id < state.nodeCount) then
      some { state with
        writing := some
          { backend := backend
            newNodeId := state.nodeCount
            body := body
            selected := selected
            codeStart := state.codeStart
            codeWritten := false
            ownChain := []
            levelsWritten := 0 } }
    else none
  | .reciprocal position kept =>
    match state.writing, state.adjacency[position]? with
    | some insert, some tuple =>
      if insert.codeWritten = false ∧ tuple.nodeId < state.nodeCount ∧
          tuple.nodeId ∈ (insert.selected[tuple.level]?).getD [] ∧
          (∀ id ∈ kept, id = insert.newNodeId ∨ id ∈ tuple.neighbors.map Neighbor.id) then
        some { state with
          adjacency := state.adjacency.set position
            { tuple with
              neighbors := keptNeighbors tuple.neighbors insert.newNodeId insert.body kept } }
      else none
    | _, _ => none
  | .code =>
    match state.writing with
    | none => none
    | some insert =>
      if insert.codeWritten then none
      else
        match appendTuple (codeFits tupleSize) true .quantCode state.pages
            (appendPosition index (state.cursors insert.backend) insert.codeStart)
            (codeTuple insert.newNodeId insert.body) with
        | .error refused => some { state with pages := refused.pages, writing := none }
        | .ok result =>
          some { state with
            pages := result.pages
            cursors := Function.update state.cursors insert.backend
              (some ⟨index, insert.codeStart.getD result.start, result.insertBlock⟩)
            writing := some { insert with
              codeStart := some (insert.codeStart.getD result.start)
              codeWritten := true } }
  | .adjacency =>
    match state.writing with
    | none => none
    | some insert =>
      match insert.selected[insert.levelsWritten]? with
      | none => none
      | some ids =>
        if insert.codeWritten then
          let tuple : AdjacencyTuple Body :=
            ⟨insert.newNodeId, insert.levelsWritten,
              ids.map fun id => ⟨id, vectorOf state.pages insert.codeStart id⟩⟩
          if state.adjStarted then
            some { state with
              adjacency := state.adjacency ++ [tuple]
              writing := some { insert with levelsWritten := insert.levelsWritten + 1 } }
          else
            some { state with
              writing := some { insert with
                ownChain := insert.ownChain ++ [tuple]
                levelsWritten := insert.levelsWritten + 1 } }
        else none
  | .publish =>
    match state.writing with
    | none => none
    | some insert =>
      if insert.codeWritten ∧ insert.levelsWritten = insert.selected.length then
        some { state with
          codeStart := insert.codeStart
          nodeCount := insert.newNodeId + 1
          adjacency := state.adjacency ++ insert.ownChain
          adjStarted := true
          writing := none }
      else none
  | .fail => some { state with writing := none }
  | .repair position kept =>
    match state.adjacency[position]? with
    | none => none
    | some tuple =>
      if ∀ id ∈ kept, id < state.nodeCount then
        some { state with
          adjacency := state.adjacency.set position
            { tuple with
              neighbors := kept.map fun id => ⟨id, vectorOf state.pages state.codeStart id⟩ } }
      else none
  | .turn backend cursor =>
    if cursor.index = index then none
    else some { state with cursors := Function.update state.cursors backend (some cursor) }
  | .leave backend => some { state with cursors := Function.update state.cursors backend none }
  | .extend page =>
    if page.kind = some .quantCode then none
    else some { state with pages := state.pages ++ [page] }
  | .rewrite block page =>
    match state.pages[block]? with
    | none => none
    | some old =>
      if old.kind = some .quantCode ∨ page.kind = some .quantCode then none
      else some { state with pages := state.pages.set block page }

/-- After a build, with the adjacency tuples that it wrote. -/
def builtIndex (pages : List (CodePage Body)) (codeStart : Option Nat) (nodeCount : Nat)
    (adjacency : List (AdjacencyTuple Body)) : IndexState Body :=
  { pages := pages
    codeStart := codeStart
    nodeCount := nodeCount
    adjacency := adjacency
    adjStarted := decide (0 < nodeCount)
    cursors := fun _ => none
    writing := none }

end Steps

/-! ### What the steps keep of the code tuples -/

def perPage (tupleSize : Nat) : Nat := usableSpace / (tupleSize + 4)

def IndexState.currentStart (state : IndexState Body) : Option Nat :=
  match state.writing with
  | some insert => insert.codeStart
  | none => state.codeStart

def IndexState.codeWritten (state : IndexState Body) : Bool :=
  match state.writing with
  | some insert => insert.codeWritten
  | none => false

def tuplesOf (bodies : List Body) : List (CodeTuple Body) :=
  bodies.zipIdx.map fun node => codeTuple node.2 node.1

/-- **The code tuples are those of the nodes in order**, and that of an insert that has written its
own; they stand on full pages, and cursors of the chain are on it. -/
structure CodeSound (index tupleSize : Nat) (state : IndexState Body) (blocks : List Nat)
    (bodies : List Body) : Prop where
  chain : IsChain .quantCode state.pages state.currentStart blocks
  sorted : blocks.Pairwise (· < ·)
  packed : Packed (perPage tupleSize) state.pages blocks
  tuples : blockItems state.pages blocks = tuplesOf bodies
  count : bodies.length = state.nodeCount + if state.codeWritten then 1 else 0
  started : state.codeStart = none ↔ state.nodeCount = 0
  cursors : ∀ backend cursor, state.cursors backend = some cursor → cursor.index = index →
    cursor.start < state.pages.length ∧
      (state.currentStart = some cursor.start → cursor.tail ∈ blocks)
  insert : ∀ insert, state.writing = some insert → insert.newNodeId = state.nodeCount ∧
    (insert.codeWritten = false → insert.codeStart = state.codeStart) ∧
    (insert.codeWritten = true → (state.codeStart = none ∨ insert.codeStart = state.codeStart) ∧
      bodies.getLast? = some insert.body)

section Sound

variable {index tupleSize : Nat} {state : IndexState Body} {blocks : List Nat}
  {bodies : List Body}

theorem codeFits_eq (positive : 0 < tupleSize) (items : List (CodeTuple Body))
    (tuple : CodeTuple Body) :
    codeFits tupleSize items tuple = decide (items.length < perPage tupleSize) := by
  unfold codeFits pageFreeSpace perPage
  have slot : 0 < tupleSize + 4 := by omega
  rw [decide_eq_decide, Nat.lt_iff_add_one_le, Nat.le_div_iff_mul_le slot, Nat.add_mul,
    Nat.one_mul]
  omega

theorem tuplesOf_append (bodies : List Body) (body : Body) :
    tuplesOf (bodies ++ [body]) = tuplesOf bodies ++ [codeTuple bodies.length body] := by
  unfold tuplesOf
  rw [List.zipIdx_append, List.map_append]
  simp

theorem tuplesOf_getElem (bodies : List Body) (position : Nat) :
    (tuplesOf bodies)[position]? = (bodies[position]?).map (codeTuple position) := by
  unfold tuplesOf
  rw [List.getElem?_map, List.getElem?_zipIdx]
  cases bodies[position]? <;> simp

theorem length_tuplesOf (bodies : List Body) : (tuplesOf bodies).length = bodies.length := by
  rw [tuplesOf, List.length_map, List.length_zipIdx]

theorem CodeSound.blocks_nil (sound : CodeSound index tupleSize state blocks bodies)
    (large : perPage tupleSize = 0) : blocks = [] := by
  cases blocks using List.reverseRecOn with
  | nil => rfl
  | append_singleton before tail =>
    obtain ⟨page, -, positive, short⟩ := sound.packed.last
    omega

theorem CodeSound.position (sound : CodeSound index tupleSize state blocks bodies)
    (backend : Nat) :
    AppendFrom (appendPosition index (state.cursors backend) state.currentStart) blocks := by
  have chain := sound.chain
  cases start : state.currentStart with
  | none =>
    rw [start] at chain
    have nowhere : appendPosition index (state.cursors backend) none = none := by
      unfold appendPosition
      cases state.cursors backend with
      | none => rfl
      | some cursor =>
        dsimp only
        rw [if_neg]
        rintro ⟨-, same⟩
        cases same
    rw [nowhere]
    refine ⟨fun _ => ?_, (fun _ none => nomatch none)⟩
    cases blocks with
    | nil => rfl
    | cons block rest => cases chain.1
  | some first =>
    rw [start] at chain
    have member := chain.start_mem
    unfold appendPosition
    cases found : state.cursors backend with
    | none =>
      exact ⟨(fun none => nomatch none), fun block same => Option.some.inj same ▸ member⟩
    | some cursor =>
      dsimp only
      split_ifs with here
      · refine ⟨(fun none => nomatch none), fun block same => ?_⟩
        obtain rfl := Option.some.inj same
        exact (sound.cursors backend cursor found here.1).2 (start.trans here.2.symm)
      · exact ⟨(fun none => nomatch none), fun block same => Option.some.inj same ▸ member⟩

theorem CodeSound.others (sound : CodeSound index tupleSize state blocks bodies)
    {changed : List (CodePage Body)} {touched : List Nat}
    (kept : KeptOutside touched state.pages changed) (apart : blocks.Disjoint touched) :
    CodeSound index tupleSize { state with pages := changed } blocks bodies := by
  obtain ⟨chain, items⟩ := sound.chain.frame kept apart
  refine ⟨chain, sound.sorted, ?_, items.trans sound.tuples, sound.count, sound.started, ?_,
    sound.insert⟩
  · refine sound.packed.congr fun block member => ?_
    exact kept.2 block (sound.chain.lt member) fun inside => apart member inside
  · intro backend cursor found same
    obtain ⟨before, onChain⟩ := sound.cursors backend cursor found same
    exact ⟨before.trans_le kept.1, onChain⟩

theorem CodeSound.rewritten (sound : CodeSound index tupleSize state blocks bodies) {block : Nat}
    {old page : CodePage Body} (here : state.pages[block]? = some old)
    (kind : old.kind ≠ some .quantCode) :
    CodeSound index tupleSize { state with pages := state.pages.set block page } blocks bodies := by
  refine sound.others (set_keptOutside (List.mem_singleton_self block) page) ?_
  intro other member same
  obtain rfl := List.mem_singleton.mp same
  obtain ⟨page, there, kinded⟩ := sound.chain.kind_eq member
  obtain rfl := Option.some.inj (here.symm.trans there)
  exact kind kinded

def OnChain (pages : List (CodePage Body)) (blocks : List Nat) : Prop :=
  ∀ (block : Nat) (page : CodePage Body), pages[block]? = some page →
    page.kind = some .quantCode → block ∈ blocks

structure CodeStep (index tupleSize : Nat) (state after : IndexState Body)
    (action : InsertAction Body) (blocks blocks' : List Nat) (bodies bodies' : List Body) :
    Prop where
  sound : CodeSound index tupleSize after blocks' bodies'
  nodes : ∀ id < after.nodeCount, bodies'[id]? = bodies[id]?
  onChain : 0 < perPage tupleSize → (action = .fail → state.codeWritten = false) →
    OnChain state.pages blocks → OnChain after.pages blocks'

theorem CodeStep.same {action : InsertAction Body} {after : IndexState Body}
    (sound : CodeSound index tupleSize after blocks bodies) (pages : after.pages = state.pages) :
    CodeStep index tupleSize state after action blocks blocks bodies bodies :=
  ⟨sound, fun _ _ => rfl, fun _ _ chain => by rwa [pages]⟩

variable {insert : Insert Body}

theorem CodeSound.append (sound : CodeSound index tupleSize state blocks bodies)
    (positive : 0 < tupleSize) {after : IndexState Body} (here : state.writing = some insert)
    (fresh : insert.codeWritten = false)
    (stepped : insertStep index tupleSize state .code = some after) :
    ∃ blocks' bodies', CodeStep index tupleSize state after .code blocks blocks' bodies bodies' := by
  have current : state.currentStart = insert.codeStart := by
    unfold IndexState.currentStart
    rw [here]
  have unwritten : state.codeWritten = false := by
    unfold IndexState.codeWritten
    rw [here]
    exact fresh
  have same : insert.codeStart = state.codeStart := (sound.insert insert here).2.1 fresh
  have count : bodies.length = state.nodeCount := by
    rw [sound.count, unwritten]
    exact Nat.add_zero _
  have placed := sound.position insert.backend
  have chain := sound.chain
  rw [current] at placed chain
  simp only [insertStep, here, fresh, Bool.false_eq_true, if_false] at stepped
  rcases Nat.eq_zero_or_pos (perPage tupleSize) with large | room
  · -- A tuple that fits no page is refused, and there is no chain.
    obtain rfl := sound.blocks_nil large
    have nowhere : appendPosition index (state.cursors insert.backend) insert.codeStart = none := by
      cases position : appendPosition index (state.cursors insert.backend) insert.codeStart with
      | none => rfl
      | some block => cases placed.inside block position
    obtain ⟨refused, refusedEq, kept⟩ := @appendTuple_start_refused _ _ _
      (codeFits tupleSize) (codeTuple insert.newNodeId insert.body) .quantCode state.pages true
      (fun items => by rw [codeFits_eq positive, large]; rfl)
    rw [nowhere, refusedEq] at stepped
    obtain rfl := Option.some.inj stepped
    have others := sound.others kept (List.disjoint_nil_left _)
    refine ⟨[], bodies, ⟨?_, sound.sorted, trivial, sound.tuples, ?_, sound.started, ?_, ?_⟩,
      fun _ _ => rfl, fun some => absurd some large.not_gt⟩
    · show state.codeStart = none
      rw [← same]
      exact chain
    · show bodies.length = state.nodeCount + 0
      rw [count, Nat.add_zero]
    · intro backend cursor found ofIndex
      obtain ⟨before, -⟩ := others.cursors backend cursor found ofIndex
      refine ⟨before, fun onChain => ?_⟩
      have started : state.codeStart = some cursor.start := onChain
      rw [← same, show insert.codeStart = none from chain] at started
      cases started
    · intro insert none
      cases none
  · obtain ⟨result, added, appended, append⟩ := @appendTuple_packed _ _ _ CodeKind.quantCode
      (perPage tupleSize) state.pages insert.codeStart blocks
      (codeTuple insert.newNodeId insert.body) (codeFits tupleSize) true (codeFits_eq positive)
      room _ chain sound.packed placed
    rw [appended] at stepped
    obtain rfl := Option.some.inj stepped
    have newNodeId : insert.newNodeId = bodies.length := by
      rw [(sound.insert insert here).1, count]
    refine ⟨blocks ++ added, bodies ++ [insert.body],
      ⟨append.chain, ?_, append.packed, ?_, ?_, sound.started, ?_, ?_⟩, ?_, ?_⟩
    · refine List.pairwise_append.mpr ⟨sound.sorted, ?_, ?_⟩
      · rcases append.fresh with rfl | rfl
        · exact List.Pairwise.nil
        · exact List.pairwise_singleton _ _
      · intro block member other inside
        rcases append.fresh with rfl | rfl
        · cases inside
        · rw [List.mem_singleton.mp inside]
          exact chain.lt member
    · rw [append.items, sound.tuples, tuplesOf_append, newNodeId]
    · rw [List.length_append, count]
      rfl
    · intro backend cursor found ofIndex
      have first := append.chain.lt append.chain.start_mem
      by_cases own : backend = insert.backend
      · subst own
        obtain rfl : ⟨index, insert.codeStart.getD result.start, result.insertBlock⟩ = cursor := by
          simpa using found
        exact ⟨first, fun _ => append.inserted⟩
      · have old : state.cursors backend = some cursor := by
          simpa [Function.update_of_ne own] using found
        obtain ⟨before, onChain⟩ := sound.cursors backend cursor old ofIndex
        refine ⟨before.trans_le append.kept.1, fun start => ?_⟩
        have start : insert.codeStart.getD result.start = cursor.start := Option.some.inj start
        cases old : insert.codeStart with
        | some first =>
          rw [old] at start
          refine List.mem_append_left _ (onChain ?_)
          rw [current, old]
          exact congrArg some start
        | none =>
          rw [old] at start
          have created := append.created old
          exact absurd (created.symm.trans start) before.ne'
    · intro other found
      obtain rfl := Option.some.inj found
      refine ⟨(sound.insert insert here).1, (fun written => nomatch written), fun _ => ⟨?_, ?_⟩⟩
      · cases old : insert.codeStart with
        | none => exact Or.inl (same.symm.trans old)
        | some first => exact Or.inr (old.symm.trans same)
      · exact List.getLast?_concat
    · intro id inside
      exact List.getElem?_append_left (count ▸ inside)
    · intro _ _ onChain block page found kind
      rcases append.others block page found kind with member | old
      · exact member
      · exact List.mem_append_left _ (onChain block page old kind)

/-- **Every step keeps the code tuples in order**, but the failure of an insert that has written
its own behind others. -/
theorem codeSound_step (sound : CodeSound index tupleSize state blocks bodies)
    (positive : 0 < tupleSize) {action : InsertAction Body} {after : IndexState Body}
    (failed : action = .fail → state.nodeCount = 0 ∨ state.codeWritten = false)
    (stepped : insertStep index tupleSize state action = some after) :
    ∃ blocks' bodies', CodeStep index tupleSize state after action blocks blocks' bodies bodies' := by
  cases action with
  | start backend body selected =>
    simp only [insertStep] at stepped
    split_ifs at stepped with free
    obtain rfl := Option.some.inj stepped
    have none := Option.isNone_iff_eq_none.mp free.1
    have current : state.currentStart = state.codeStart := by
      unfold IndexState.currentStart
      rw [none]
    have unwritten : state.codeWritten = false := by
      unfold IndexState.codeWritten
      rw [none]
    have chain := sound.chain
    have count := sound.count
    have cursors := sound.cursors
    rw [current] at chain cursors
    rw [unwritten] at count
    refine ⟨blocks, bodies, CodeStep.same
      ⟨chain, sound.sorted, sound.packed, sound.tuples, count, sound.started, cursors, ?_⟩ rfl⟩
    intro insert found
    obtain rfl := Option.some.inj found
    exact ⟨rfl, fun _ => rfl, (fun written => nomatch written)⟩
  | reciprocal position kept =>
    simp only [insertStep] at stepped
    split at stepped
    · split_ifs at stepped
      obtain rfl := Option.some.inj stepped
      exact ⟨blocks, bodies, CodeStep.same
        ⟨sound.chain, sound.sorted, sound.packed, sound.tuples, sound.count, sound.started,
          sound.cursors, sound.insert⟩ rfl⟩
    · cases stepped
  | code =>
    cases here : state.writing with
    | none =>
      simp only [insertStep, here] at stepped
      cases stepped
    | some insert =>
      cases fresh : insert.codeWritten with
      | true =>
        simp only [insertStep, here, fresh, if_true] at stepped
        cases stepped
      | false => exact sound.append positive here fresh stepped
  | adjacency =>
    simp only [insertStep] at stepped
    cases here : state.writing with
    | none =>
      rw [here] at stepped
      cases stepped
    | some insert =>
      rw [here] at stepped
      dsimp only at stepped
      have chain := sound.chain
      have count := sound.count
      have cursors := sound.cursors
      unfold IndexState.currentStart at chain cursors
      unfold IndexState.codeWritten at count
      rw [here] at chain cursors count
      obtain ⟨newNodeId, before, written⟩ := sound.insert insert here
      split at stepped
      · cases stepped
      · split_ifs at stepped
        all_goals
          obtain rfl := Option.some.inj stepped
          refine ⟨blocks, bodies, CodeStep.same
            ⟨chain, sound.sorted, sound.packed, sound.tuples, count, sound.started, cursors, ?_⟩ rfl⟩
          intro other found
          obtain rfl := Option.some.inj found
          exact ⟨newNodeId, before, written⟩
  | publish =>
    simp only [insertStep] at stepped
    cases here : state.writing with
    | none =>
      rw [here] at stepped
      cases stepped
    | some insert =>
      rw [here] at stepped
      dsimp only at stepped
      split_ifs at stepped with whole
      obtain rfl := Option.some.inj stepped
      have chain := sound.chain
      have count := sound.count
      have cursors := sound.cursors
      unfold IndexState.currentStart at chain cursors
      unfold IndexState.codeWritten at count
      rw [here] at chain cursors count
      dsimp only at chain cursors count
      obtain ⟨newNodeId, -, written⟩ := sound.insert insert here
      have longer : bodies.length = state.nodeCount + 1 := by
        simpa [whole.1] using count
      refine ⟨blocks, bodies, ⟨chain, sound.sorted, sound.packed, sound.tuples, ?_, ?_, cursors, ?_⟩,
        fun _ _ => rfl, fun _ _ onChain => onChain⟩
      · show bodies.length = insert.newNodeId + 1 + 0
        rw [longer, newNodeId]
      · refine ⟨fun (missing : insert.codeStart = none) => ?_, (fun zero => nomatch zero)⟩
        have empty : blocks = [] := by
          rw [missing] at chain
          cases blocks with
          | nil => rfl
          | cons block rest => cases chain.1
        have tuples := congrArg List.length sound.tuples
        rw [empty, length_tuplesOf, longer] at tuples
        cases tuples
      · intro insert none
        cases none
  | fail =>
    obtain rfl := Option.some.inj stepped
    rcases failed rfl with zero | unwritten
    · -- Nothing is published: the chain of the insert is lost.
      have none := sound.started.mpr zero
      refine ⟨[], [], ⟨none, List.Pairwise.nil, trivial, rfl, ?_, sound.started, ?_, ?_⟩, ?_, ?_⟩
      · show 0 = state.nodeCount + 0
        rw [zero]
      · intro backend cursor found ofIndex
        refine ⟨(sound.cursors backend cursor found ofIndex).1, fun start => ?_⟩
        rw [show state.codeStart = some cursor.start from start] at none
        cases none
      · intro insert none
        cases none
      · intro id inside
        rw [show state.nodeCount = 0 from zero] at inside
        exact absurd inside (Nat.not_lt_zero _)
      · intro _ unwritten onChain
        have written := unwritten rfl
        have length : bodies.length = 0 := by
          rw [sound.count, written, zero]
          rfl
        have empty : blocks = [] := by
          by_contra some
          have least := (packed_length sound.packed).2 some
          rw [sound.tuples, length_tuplesOf, length] at least
          exact absurd least (Nat.not_lt_zero _)
        rwa [← empty]
    · have current : state.currentStart = state.codeStart := by
        unfold IndexState.currentStart
        cases here : state.writing with
        | none => rfl
        | some insert =>
          have fresh : insert.codeWritten = false := by
            unfold IndexState.codeWritten at unwritten
            rwa [here] at unwritten
          exact (sound.insert insert here).2.1 fresh
      have chain := sound.chain
      have count := sound.count
      have cursors := sound.cursors
      rw [current] at chain cursors
      rw [unwritten] at count
      refine ⟨blocks, bodies, CodeStep.same
        ⟨chain, sound.sorted, sound.packed, sound.tuples, count, sound.started, cursors, ?_⟩ rfl⟩
      intro insert none
      cases none
  | repair position kept =>
    simp only [insertStep] at stepped
    split at stepped
    · cases stepped
    · split_ifs at stepped
      obtain rfl := Option.some.inj stepped
      exact ⟨blocks, bodies, CodeStep.same
        ⟨sound.chain, sound.sorted, sound.packed, sound.tuples, sound.count, sound.started,
          sound.cursors, sound.insert⟩ rfl⟩
  | turn backend cursor =>
    simp only [insertStep] at stepped
    split_ifs at stepped with foreign
    obtain rfl := Option.some.inj stepped
    refine ⟨blocks, bodies, CodeStep.same
      ⟨sound.chain, sound.sorted, sound.packed, sound.tuples, sound.count, sound.started, ?_,
        sound.insert⟩ rfl⟩
    intro other found there ofIndex
    by_cases own : other = backend
    · subst own
      obtain rfl : cursor = found := by simpa using there
      exact absurd ofIndex foreign
    · exact sound.cursors other found (by simpa [Function.update_of_ne own] using there) ofIndex
  | leave backend =>
    obtain rfl := Option.some.inj stepped
    refine ⟨blocks, bodies, CodeStep.same
      ⟨sound.chain, sound.sorted, sound.packed, sound.tuples, sound.count, sound.started, ?_,
        sound.insert⟩ rfl⟩
    intro other found there ofIndex
    by_cases own : other = backend
    · subst own
      simp at there
    · exact sound.cursors other found (by simpa [Function.update_of_ne own] using there) ofIndex
  | extend page =>
    simp only [insertStep] at stepped
    split_ifs at stepped with kind
    obtain rfl := Option.some.inj stepped
    refine ⟨blocks, bodies, sound.others (append_keptOutside [] [page]) (List.disjoint_nil_right _),
      fun _ _ => rfl, ?_⟩
    intro _ _ onChain block other here exactKind
    rcases Nat.lt_or_ge block state.pages.length with before | behind
    · rw [List.getElem?_append_left before] at here
      exact onChain block other here exactKind
    · rw [List.getElem?_append_right behind] at here
      obtain rfl := List.mem_singleton.mp (List.mem_of_getElem? here)
      exact absurd exactKind kind
  | rewrite block page =>
    simp only [insertStep] at stepped
    cases here : state.pages[block]? with
    | none =>
      rw [here] at stepped
      cases stepped
    | some old =>
      rw [here] at stepped
      dsimp only at stepped
      split_ifs at stepped with kinds
      obtain rfl := Option.some.inj stepped
      obtain ⟨oldKind, newKind⟩ := not_or.mp kinds
      refine ⟨blocks, bodies, sound.rewritten here oldKind, fun _ _ => rfl, ?_⟩
      intro _ _ onChain other changed there exactKind
      by_cases same : other = block
      · rw [same, List.getElem?_set_self (List.getElem?_eq_some_iff.mp here).1] at there
        obtain rfl := Option.some.inj there
        exact absurd exactKind newKind
      · rw [List.getElem?_set_ne (Ne.symm same)] at there
        exact onChain other changed there exactKind

end Sound

/-! ### What the build writes -/

section Build

variable {index tupleSize : Nat} {pages final : List (CodePage Body)} {start last : Option Nat}
  {blocks : List Nat} {done bodies : List Body}

structure BuildChain (tupleSize : Nat) (pages : List (CodePage Body)) (start buf : Option Nat)
    (blocks : List Nat) (done : List Body) : Prop where
  chain : IsChain .quantCode pages start blocks
  sorted : blocks.Pairwise (· < ·)
  packed : Packed (perPage tupleSize) pages blocks
  tuples : blockItems pages blocks = tuplesOf done
  placed : AppendFrom buf blocks
  onChain : OnChain pages blocks

theorem writeCodeTuples_chain (positive : 0 < tupleSize) {buf : Option Nat}
    (sound : BuildChain tupleSize pages start buf blocks done)
    (ran : writeCodeTuples tupleSize done.length pages start buf bodies = .ok (final, last)) :
    ∃ blocks' buf', BuildChain tupleSize final last buf' blocks' (done ++ bodies) := by
  induction bodies generalizing pages start buf blocks done with
  | nil =>
    obtain ⟨rfl, rfl⟩ := Prod.mk.inj (Except.ok.inj ran)
    rw [List.append_nil]
    exact ⟨blocks, buf, sound⟩
  | cons body bodies ih =>
    rw [writeCodeTuples] at ran
    rcases Nat.eq_zero_or_pos (perPage tupleSize) with large | room
    · have empty : blocks = [] := by
        cases blocks using List.reverseRecOn with
        | nil => rfl
        | append_singleton before tail =>
          obtain ⟨page, -, some, short⟩ := sound.packed.last
          omega
      have nowhere : buf = none := by
        cases buf with
        | none => rfl
        | some block =>
          have member := sound.placed.inside block rfl
          rw [empty] at member
          cases member
      obtain ⟨refused, refusedEq, -⟩ := @appendTuple_start_refused _ _ _
        (codeFits tupleSize) (codeTuple done.length body) .quantCode pages false
        (fun items => by rw [codeFits_eq positive, large]; rfl)
      rw [nowhere, refusedEq] at ran
      cases ran
    · obtain ⟨result, added, appended, append⟩ := @appendTuple_packed _ _ _ CodeKind.quantCode
        (perPage tupleSize) pages start blocks (codeTuple done.length body) (codeFits tupleSize)
        false (codeFits_eq positive) room _ sound.chain sound.packed sound.placed
      rw [appended] at ran
      have next : BuildChain tupleSize result.pages (some (start.getD result.start))
          (some result.insertBlock) (blocks ++ added) (done ++ [body]) := by
        refine ⟨append.chain, ?_, append.packed, ?_, ?_, ?_⟩
        · refine List.pairwise_append.mpr ⟨sound.sorted, ?_, ?_⟩
          · rcases append.fresh with rfl | rfl
            · exact List.Pairwise.nil
            · exact List.pairwise_singleton _ _
          · intro block member other inside
            rcases append.fresh with rfl | rfl
            · cases inside
            · rw [List.mem_singleton.mp inside]
              exact sound.chain.lt member
        · rw [append.items, sound.tuples, tuplesOf_append]
        · refine ⟨(fun none => nomatch none), fun block same => ?_⟩
          exact Option.some.inj same ▸ append.inserted
        · intro block page found kind
          rcases append.others block page found kind with member | old
          · exact member
          · exact List.mem_append_left _ (sound.onChain block page old kind)
      have length : (done ++ [body]).length = done.length + 1 := List.length_append
      rw [← length] at ran
      obtain ⟨blocks', buf', whole⟩ := ih next ran
      refine ⟨blocks', buf', ?_⟩
      rwa [List.append_assoc] at whole

/-- **The build writes the code tuples of its nodes.** -/
theorem codeSound_built (positive : 0 < tupleSize)
    (others : ∀ page ∈ pages, page.kind ≠ some .quantCode)
    (ran : writeCodePages tupleSize pages bodies = .ok (final, last))
    (adjacency : List (AdjacencyTuple Body)) :
    ∃ blocks, CodeSound index tupleSize (builtIndex final last bodies.length adjacency) blocks
      bodies ∧ OnChain final blocks := by
  have nothing : BuildChain tupleSize pages none none [] ([] : List Body) := by
    refine ⟨rfl, List.Pairwise.nil, trivial, rfl, ⟨fun _ => rfl, (fun _ none => nomatch none)⟩, ?_⟩
    intro block page here kind
    exact absurd kind (others page (List.mem_of_getElem? here))
  obtain ⟨blocks, buf, whole⟩ := writeCodeTuples_chain positive nothing ran
  rw [List.nil_append] at whole
  refine ⟨blocks, ⟨whole.chain, whole.sorted, whole.packed, whole.tuples, rfl, ?_, ?_, ?_⟩,
    whole.onChain⟩
  · have lengths := congrArg List.length whole.tuples
    rw [length_tuplesOf] at lengths
    have chain := whole.chain
    constructor
    · intro (missing : last = none)
      rw [missing] at chain
      cases blocks with
      | nil => exact lengths.symm
      | cons block rest => cases chain.1
    · intro (zero : bodies.length = 0)
      cases blocks with
      | nil => exact chain
      | cons block rest =>
        have least := (packed_length whole.packed).2 (List.cons_ne_nil _ _)
        rw [lengths, zero] at least
        exact absurd least (Nat.not_lt_zero _)
  · intro backend cursor none
    cases none
  · intro insert none
    cases none

end Build

end TurboHybrid.CodeChain
