/-
**The walk of a vacuum over the code tuples.**

A vacuum marks the nodes whose heap tuples are reported dead. It follows the code chain for as many
pages as the node count takes at full pages.

* `bulkDelete`: the walk, with what it reports;
* `bulkDeletePages_spec`: it maps the tuples of the pages it visits and counts the live ones;
* `vacuumComplete_reached`: where no failed insert has left a code tuple it reaches every node;
* `vacuum_missesOrphaned`: behind an orphan it misses the last node.
-/
import TurboHybrid.Graph.LazyLoad

namespace TurboHybrid.CodeChain

open TurboHybrid.Library

/-! ### The walk -/

abbrev HeapTid := Nat × Nat

/-- What the walk reads of a code tuple, and its mark. -/
structure NodeBody where
  heaptid : HeapTid
  level : Nat
  dead : Bool
  deriving DecidableEq, Repr

/-- What a vacuum gathers: the nodes that are dead, the levels, and the counts. -/
structure BulkDelete where
  deadNodes : List Bool
  nodeLevels : List Nat
  hasDeadNodes : Bool
  changedAny : Bool
  tuplesRemoved : Nat
  liveTuples : Nat
  deriving DecidableEq, Repr

section Walk

variable (nodeCount : Nat) (callback : HeapTid → Bool)

/-- One tuple of a page: dead already, reported dead now, or live. -/
def bulkDeleteTuple (result : BulkDelete) (tuple : CodeTuple NodeBody) :
    BulkDelete × CodeTuple NodeBody :=
  if tuple.type ≠ codeTupleType ∨ nodeCount ≤ tuple.nodeId then (result, tuple)
  else
    let result := { result with nodeLevels := result.nodeLevels.set tuple.nodeId tuple.body.level }
    if tuple.body.dead then
      ({ result with
        deadNodes := result.deadNodes.set tuple.nodeId true
        hasDeadNodes := true }, tuple)
    else if callback tuple.body.heaptid then
      ({ result with
        deadNodes := result.deadNodes.set tuple.nodeId true
        hasDeadNodes := true
        changedAny := true
        tuplesRemoved := result.tuplesRemoved + 1 },
        { tuple with body := { tuple.body with dead := true } })
    else ({ result with liveTuples := result.liveTuples + 1 }, tuple)

def bulkDeleteItems : BulkDelete → List (CodeTuple NodeBody) →
    BulkDelete × List (CodeTuple NodeBody)
  | result, [] => (result, [])
  | result, tuple :: rest =>
    let (result, tuple) := bulkDeleteTuple nodeCount callback result tuple
    let (result, rest) := bulkDeleteItems result rest
    (result, tuple :: rest)

/-- The pages from a block on, at most as many as are left. -/
def bulkDeletePages : Nat → Option Nat → List (CodePage NodeBody) → BulkDelete →
    BulkDelete × List (CodePage NodeBody)
  | 0, _, pages, result => (result, pages)
  | _ + 1, none, pages, result => (result, pages)
  | left + 1, some blkno, pages, result =>
    match pages[blkno]? with
    | none => (result, pages)
    | some page =>
      if page.kind ≠ some .quantCode then (result, pages)
      else
        let (result, items) := bulkDeleteItems nodeCount callback result page.items
        bulkDeletePages left page.next (pages.set blkno { page with items := items }) result

end Walk

def bulkDelete (tupleSize : Nat) (callback : HeapTid → Bool) (state : IndexState NodeBody) :
    BulkDelete × IndexState NodeBody :=
  let fresh : BulkDelete :=
    { deadNodes := List.replicate state.nodeCount false
      nodeLevels := List.replicate state.nodeCount 0
      hasDeadNodes := false
      changedAny := false
      tuplesRemoved := 0
      liveTuples := 0 }
  if state.nodeCount = 0 ∨ state.codeStart = none then (fresh, state)
  else
    let (result, pages) := bulkDeletePages state.nodeCount callback
      (pageCount state.nodeCount (tuplesPerPage tupleSize)) state.codeStart state.pages fresh
    (result, { state with pages := pages })

/-- **A complete vacuum**: no tuple of a node is live under a reported heap tuple, and the live
tuples are as many as the live nodes. -/
structure VacuumComplete (callback : HeapTid → Bool) (result : BulkDelete)
    (after : IndexState NodeBody) : Prop where
  complete : ∀ tuple ∈ codeTuples after.pages after.codeStart, tuple.nodeId < after.nodeCount →
    tuple.body.dead = false → callback tuple.body.heaptid = false
  counted : result.liveTuples = ((List.range after.nodeCount).filter fun id =>
    (vectorOf after.pages after.codeStart id).any fun body => !body.dead).length

/-! ### What the walk does -/

def markTuple (nodeCount : Nat) (callback : HeapTid → Bool) (tuple : CodeTuple NodeBody) :
    CodeTuple NodeBody :=
  if tuple.type = codeTupleType ∧ tuple.nodeId < nodeCount ∧ callback tuple.body.heaptid = true then
    { tuple with body := { tuple.body with dead := true } }
  else tuple

def countsTuple (nodeCount : Nat) (tuple : CodeTuple NodeBody) : Bool :=
  decide (tuple.type = codeTupleType) && decide (tuple.nodeId < nodeCount) && !tuple.body.dead

section Spec

variable {nodeCount : Nat} {callback : HeapTid → Bool}

theorem bulkDeleteTuple_spec (result : BulkDelete) (tuple : CodeTuple NodeBody) :
    (bulkDeleteTuple nodeCount callback result tuple).2 = markTuple nodeCount callback tuple ∧
      (bulkDeleteTuple nodeCount callback result tuple).1.liveTuples = result.liveTuples +
        if countsTuple nodeCount (markTuple nodeCount callback tuple) then 1 else 0 := by
  obtain ⟨type, nodeId, heaptid, level, dead⟩ := tuple
  unfold bulkDeleteTuple markTuple countsTuple
  by_cases other : type ≠ codeTupleType ∨ nodeCount ≤ nodeId
  · rw [if_pos other]
    rcases other with wrong | beyond
    · simp [wrong]
    · simp [not_lt.mpr beyond]
  · rw [if_neg other]
    obtain ⟨right, inside⟩ := not_or.mp other
    have right : type = codeTupleType := not_not.mp right
    have inside : nodeId < nodeCount := not_le.mp inside
    cases dead <;> cases reported : callback heaptid <;> simp [right, inside]

theorem bulkDeleteItems_spec (result : BulkDelete) (items : List (CodeTuple NodeBody)) :
    (bulkDeleteItems nodeCount callback result items).2 =
        items.map (markTuple nodeCount callback) ∧
      (bulkDeleteItems nodeCount callback result items).1.liveTuples = result.liveTuples +
        (items.map (markTuple nodeCount callback)).countP (countsTuple nodeCount) := by
  induction items generalizing result with
  | nil => exact ⟨rfl, rfl⟩
  | cons tuple rest ih =>
    obtain ⟨own, counted⟩ := @bulkDeleteTuple_spec nodeCount callback result tuple
    obtain ⟨others, later⟩ := ih (bulkDeleteTuple nodeCount callback result tuple).1
    refine ⟨congrArg₂ List.cons own others, ?_⟩
    rw [List.map_cons, List.countP_cons]
    refine later.trans ?_
    rw [counted]
    omega

/-- Pages whose tuples are mapped on some blocks. -/
structure MappedOn (change : CodeTuple NodeBody → CodeTuple NodeBody) (touched : List Nat)
    (pages changed : List (CodePage NodeBody)) : Prop where
  length : changed.length = pages.length
  mapped : ∀ block ∈ touched, ∀ page, pages[block]? = some page →
    changed[block]? = some { page with items := page.items.map change }
  others : ∀ block, block ∉ touched → changed[block]? = pages[block]?

/-- **The walk** maps the tuples of the pages it visits and counts the live ones. -/
theorem bulkDeletePages_spec {pages : List (CodePage NodeBody)} {start : Option Nat}
    {blocks : List Nat} (chain : IsChain .quantCode pages start blocks) (left : Nat)
    (result : BulkDelete) :
    MappedOn (markTuple nodeCount callback) (blocks.take left) pages
        (bulkDeletePages nodeCount callback left start pages result).2 ∧
      (bulkDeletePages nodeCount callback left start pages result).1.liveTuples =
        result.liveTuples + ((blockItems pages (blocks.take left)).map
          (markTuple nodeCount callback)).countP (countsTuple nodeCount) := by
  induction blocks generalizing pages start left result with
  | nil =>
    rw [show start = none from chain]
    have nothing : bulkDeletePages nodeCount callback left none pages result = (result, pages) := by
      cases left <;> rfl
    rw [nothing, List.take_nil]
    exact ⟨⟨rfl, (fun _ none => nomatch none), fun _ _ => rfl⟩, rfl⟩
  | cons block rest ih =>
    have distinct := chain.nodup
    obtain ⟨rfl, page, there, kinded, later⟩ := chain
    cases left with
    | zero => exact ⟨⟨rfl, (fun _ none => nomatch none), fun _ _ => rfl⟩, rfl⟩
    | succ left =>
      obtain ⟨items, counted⟩ := @bulkDeleteItems_spec nodeCount callback result page.items
      have inside := (List.getElem?_eq_some_iff.mp there).1
      have fresh := (List.nodup_cons.mp distinct).1
      rw [bulkDeletePages, there]
      dsimp only
      rw [if_neg (not_not.mpr kinded)]
      rw [items]
      set changed := pages.set block
        { page with items := page.items.map (markTuple nodeCount callback) } with changed_eq
      have same (other : Nat) (different : other ≠ block) : changed[other]? = pages[other]? := by
        rw [changed_eq, List.getElem?_set_ne different.symm]
      have chain' : IsChain .quantCode changed page.next rest := by
        refine (later.frame (set_keptOutside (List.mem_singleton_self block) _) ?_).1
        intro other member inBlock
        exact fresh (List.mem_singleton.mp inBlock ▸ member)
      obtain ⟨mapped, live⟩ := ih chain' left
        (bulkDeleteItems nodeCount callback result page.items).1
      refine ⟨⟨mapped.length.trans (by rw [changed_eq, List.length_set]), ?_, ?_⟩, ?_⟩
      · intro other member own found
        rw [List.take_succ_cons] at member
        rcases List.mem_cons.mp member with rfl | behind
        · obtain rfl := Option.some.inj (there.symm.trans found)
          have untouched : other ∉ rest.take left := fun again => fresh (List.mem_of_mem_take again)
          rw [mapped.others other untouched, changed_eq, List.getElem?_set_self inside]
        · have different : other ≠ block := by
            rintro rfl
            exact fresh (List.mem_of_mem_take behind)
          exact mapped.mapped other behind own ((same other different).trans found)
      · intro other out
        rw [List.take_succ_cons, List.mem_cons, not_or] at out
        rw [mapped.others other out.2, same other out.1]
      · have rest_items : blockItems changed (rest.take left) = blockItems pages (rest.take left) :=
          blockItems_congr fun other member => same other fun here =>
            fresh (here ▸ List.mem_of_mem_take member)
        rw [live, counted, rest_items, List.take_succ_cons, ← List.singleton_append,
          blockItems_append, blockItems_single there, List.map_append, List.countP_append]
        omega

end Spec

/-! ### The chain after the walk -/

section Mapped

variable {change : CodeTuple NodeBody → CodeTuple NodeBody} {touched blocks : List Nat}
  {pages changed : List (CodePage NodeBody)} {start : Option Nat}

def Mapped (change : CodeTuple NodeBody → CodeTuple NodeBody) (blocks : List Nat)
    (pages changed : List (CodePage NodeBody)) : Prop :=
  ∀ block ∈ blocks, ∀ page, pages[block]? = some page →
    changed[block]? = some { page with items := page.items.map change }

theorem MappedOn.mapped_all (mapped : MappedOn change touched pages changed)
    (same : ∀ block ∈ blocks, block ∉ touched → ∀ page, pages[block]? = some page →
      ∀ tuple ∈ page.items, change tuple = tuple) : Mapped change blocks pages changed := by
  intro block member page there
  by_cases visited : block ∈ touched
  · exact mapped.mapped block visited page there
  · have identity : page.items.map change = page.items :=
      (List.map_congr_left (same block member visited page there)).trans (List.map_id _)
    rw [mapped.others block visited, there, identity]

theorem Mapped.chain (mapped : Mapped change blocks pages changed)
    (chain : IsChain .quantCode pages start blocks) : IsChain .quantCode changed start blocks := by
  induction blocks generalizing start with
  | nil => exact chain
  | cons block rest ih =>
    obtain ⟨named, page, there, kinded, later⟩ := chain
    have behind : Mapped change rest pages changed := fun other member =>
      mapped other (List.mem_cons_of_mem _ member)
    exact ⟨named, _, mapped block List.mem_cons_self page there, kinded, ih behind later⟩

theorem Mapped.items (mapped : Mapped change blocks pages changed)
    (chain : IsChain .quantCode pages start blocks) :
    blockItems changed blocks = (blockItems pages blocks).map change := by
  induction blocks generalizing start with
  | nil => rfl
  | cons block rest ih =>
    obtain ⟨-, page, there, -, later⟩ := chain
    have behind : Mapped change rest pages changed := fun other member =>
      mapped other (List.mem_cons_of_mem _ member)
    rw [← List.singleton_append, blockItems_append, blockItems_append, List.map_append,
      ih behind later, blockItems_single there,
      blockItems_single (mapped block List.mem_cons_self page there)]

theorem Mapped.packed {size : Nat} (mapped : Mapped change blocks pages changed)
    (packed : Packed size pages blocks) : Packed size changed blocks := by
  induction blocks with
  | nil => trivial
  | cons block rest ih =>
    have behind : Mapped change rest pages changed := fun other member =>
      mapped other (List.mem_cons_of_mem _ member)
    cases rest with
    | nil =>
      obtain ⟨page, there, positive, short⟩ := packed
      refine ⟨_, mapped block List.mem_cons_self page there, ?_⟩
      simpa using ⟨positive, short⟩
    | cons next rest =>
      obtain ⟨⟨page, there, full⟩, later⟩ := packed
      refine ⟨⟨_, mapped block List.mem_cons_self page there, ?_⟩, ih behind later⟩
      simpa using full

end Mapped

/-! ### The nodes after the walk -/

section Nodes

variable {nodeCount : Nat} {callback : HeapTid → Bool} {bodies : List NodeBody}

def markBody (nodeCount : Nat) (callback : HeapTid → Bool) (id : Nat) (body : NodeBody) :
    NodeBody :=
  if id < nodeCount ∧ callback body.heaptid = true then { body with dead := true } else body

def markBodies (nodeCount : Nat) (callback : HeapTid → Bool) (bodies : List NodeBody) :
    List NodeBody :=
  bodies.mapIdx (markBody nodeCount callback)

theorem markTuple_codeTuple (id : Nat) (body : NodeBody) :
    markTuple nodeCount callback (codeTuple id body) =
      codeTuple id (markBody nodeCount callback id body) := by
  unfold markTuple markBody
  by_cases marked : id < nodeCount ∧ callback body.heaptid = true
  · rw [if_pos ⟨rfl, marked⟩, if_pos marked]
    rfl
  · rw [if_neg fun both => marked both.2, if_neg marked]

theorem tuplesOf_mark (bodies : List NodeBody) :
    (tuplesOf bodies).map (markTuple nodeCount callback) =
      tuplesOf (markBodies nodeCount callback bodies) := by
  refine List.ext_getElem? fun id => ?_
  rw [List.getElem?_map, tuplesOf_getElem, tuplesOf_getElem, markBodies, List.getElem?_mapIdx]
  cases bodies[id]? with
  | none => rfl
  | some body => exact congrArg some (markTuple_codeTuple id body)

theorem countP_tuplesOf (within : nodeCount ≤ bodies.length) :
    (tuplesOf bodies).countP (countsTuple nodeCount) =
      ((List.range nodeCount).filter fun id => bodies[id]?.any fun body => !body.dead).length := by
  induction bodies using List.reverseRecOn generalizing nodeCount with
  | nil =>
    obtain rfl : nodeCount = 0 := Nat.le_zero.mp within
    rfl
  | append_singleton bodies body ih =>
    rw [List.length_append, List.length_singleton] at within
    have old (id : Nat) (inside : id < bodies.length) : (bodies ++ [body])[id]? = bodies[id]? :=
      List.getElem?_append_left inside
    rw [tuplesOf_append, List.countP_append, List.countP_singleton]
    rcases Nat.lt_or_ge bodies.length nodeCount with last | earlier
    · obtain rfl : nodeCount = bodies.length + 1 := le_antisymm within last
      have narrow : (tuplesOf bodies).countP (countsTuple (bodies.length + 1)) =
          (tuplesOf bodies).countP (countsTuple bodies.length) := by
        refine List.countP_congr fun tuple member => ?_
        obtain ⟨id, inside, rfl⟩ := List.getElem_of_mem member
        have found := tuplesOf_getElem bodies id
        rw [List.getElem?_eq_getElem inside, List.getElem?_eq_getElem
          (length_tuplesOf bodies ▸ inside), Option.map_some, Option.some.injEq] at found
        rw [length_tuplesOf] at inside
        rw [found]
        simp [countsTuple, codeTuple, inside, inside.trans (Nat.lt_succ_self _)]
      rw [narrow, ih le_rfl, List.range_succ, List.filter_append, List.length_append,
        List.filter_singleton]
      have same : (List.range bodies.length).filter (fun id =>
          (bodies ++ [body])[id]?.any fun body => !body.dead) =
          (List.range bodies.length).filter fun id => bodies[id]?.any fun body => !body.dead :=
        List.filter_congr fun id member => by rw [old id (List.mem_range.mp member)]
      rw [same, List.getElem?_concat_length]
      cases dead : body.dead <;> simp [countsTuple, codeTuple, dead]
    · have beyond : countsTuple nodeCount (codeTuple bodies.length body) = false := by
        simp [countsTuple, codeTuple, not_lt.mpr earlier]
      rw [beyond, ih earlier]
      have same : (List.range nodeCount).filter (fun id =>
          (bodies ++ [body])[id]?.any fun body => !body.dead) =
          (List.range nodeCount).filter fun id => bodies[id]?.any fun body => !body.dead :=
        List.filter_congr fun id member => by
          rw [old id ((List.mem_range.mp member).trans_le earlier)]
      rw [same]
      simp

end Nodes

/-! ### Inserts and vacuums -/

/-- What happens to an index: a step of an insert, or a whole vacuum. -/
inductive IndexAction where
  | insert (action : InsertAction NodeBody)
  | vacuum (callback : HeapTid → Bool)

def insertsLive : InsertAction NodeBody → Bool
  | .start _ body _ => !body.dead
  | _ => true

def indexStep (index tupleSize : Nat) (state : IndexState NodeBody) :
    IndexAction → Option (IndexState NodeBody)
  | .insert action => if insertsLive action then insertStep index tupleSize state action else none
  | .vacuum callback => some (bulkDelete tupleSize callback state).2

/-- No insert fails behind its code tuple, or there is no node yet. -/
def LeavesNoTuple (state : IndexState NodeBody) (action : IndexAction) : Prop :=
  ∀ inner, action = .insert inner → inner = .fail →
    state.nodeCount = 0 ∨ state.codeWritten = false

section System

variable {index tupleSize : Nat} {state : IndexState NodeBody} {callback : HeapTid → Bool}
  {blocks : List Nat} {bodies : List NodeBody}

structure Walked (index tupleSize : Nat) (callback : HeapTid → Bool) (state : IndexState NodeBody)
    (blocks : List Nat) (bodies : List NodeBody) : Prop where
  sound : CodeSound index tupleSize (bulkDelete tupleSize callback state).2 blocks
    (markBodies state.nodeCount callback bodies)
  nodeCount : (bulkDelete tupleSize callback state).2.nodeCount = state.nodeCount
  live : (bulkDelete tupleSize callback state).1.liveTuples =
    (tuplesOf (markBodies state.nodeCount callback bodies)).countP (countsTuple state.nodeCount)

theorem length_markBodies (nodeCount : Nat) (bodies : List NodeBody) :
    (markBodies nodeCount callback bodies).length = bodies.length := by
  rw [markBodies, List.length_mapIdx]

/-- **The walk of a sound chain** marks every node that is reported. -/
theorem CodeSound.walked (sound : CodeSound index tupleSize state blocks bodies)
    (some' : 0 < state.nodeCount) : Walked index tupleSize callback state blocks bodies := by
  have current := sound.current some'
  have chain := current ▸ sound.chain
  have started : state.codeStart ≠ none := fun none' => some'.ne' (sound.started.mp none')
  have room : 0 < perPage tupleSize := by
    rcases Nat.eq_zero_or_pos (perPage tupleSize) with large | room
    · have length := congrArg List.length sound.tuples
      rw [sound.blocks_nil large, length_tuplesOf, sound.count] at length
      exact absurd (Nat.eq_zero_of_add_eq_zero_right length.symm) some'.ne'
    · exact room
  have size : tuplesPerPage tupleSize = perPage tupleSize := max_eq_right room
  set left := pageCount state.nodeCount (tuplesPerPage tupleSize) with left_eq
  set mark := markTuple state.nodeCount callback with mark_eq
  -- behind the pages of the walk there are only nodes that are not counted yet
  have behind : ∀ block ∈ blocks, block ∉ blocks.take left → ∀ page,
      state.pages[block]? = some page → ∀ tuple ∈ page.items,
        state.nodeCount ≤ tuple.nodeId := by
    intro block member out page there tuple inside
    obtain ⟨pageNo, bound, rfl⟩ := List.getElem_of_mem member
    have here := List.getElem?_eq_getElem bound
    obtain ⟨id, body, quotient, -, rfl⟩ :=
      (packed_tuples room sound.packed sound.tuples here there).mp inside
    show state.nodeCount ≤ id
    by_contra below
    have early := div_lt_pageCount room (not_le.mp below)
    rw [quotient, ← size, ← left_eq] at early
    exact out (List.mem_take_iff_getElem.mpr ⟨pageNo, lt_min early bound, rfl⟩)
  have untouched (tuple : CodeTuple NodeBody) (beyond : state.nodeCount ≤ tuple.nodeId) :
      mark tuple = tuple := if_neg fun both => absurd both.2.1 (not_lt.mpr beyond)
  let fresh : BulkDelete :=
    ⟨List.replicate state.nodeCount false, List.replicate state.nodeCount 0, false, false, 0, 0⟩
  obtain ⟨mappedOn, counted⟩ :=
    @bulkDeletePages_spec state.nodeCount callback state.pages state.codeStart blocks chain left fresh
  set walk := bulkDeletePages state.nodeCount callback left state.codeStart state.pages fresh
    with walk_eq
  have deleted : bulkDelete tupleSize callback state =
      (walk.1, { state with pages := walk.2 }) := by
    rw [bulkDelete, if_neg (not_or.mpr ⟨some'.ne', started⟩)]
  have mapped : Mapped mark blocks state.pages walk.2 :=
    mappedOn.mapped_all fun block member out page there tuple inside =>
      untouched tuple (behind block member out page there tuple inside)
  have items : blockItems walk.2 blocks = tuplesOf (markBodies state.nodeCount callback bodies) := by
    rw [mapped.items chain, sound.tuples, mark_eq, tuplesOf_mark]
  refine ⟨?_, by rw [deleted], ?_⟩
  · rw [deleted]
    refine ⟨mapped.chain sound.chain, sound.sorted, mapped.packed sound.packed, items, ?_,
      sound.started, ?_, ?_⟩
    · rw [length_markBodies]
      exact sound.count
    · intro backend cursor found ofIndex
      obtain ⟨before, onChain⟩ := sound.cursors backend cursor found ofIndex
      exact ⟨before.trans_eq mappedOn.length.symm, onChain⟩
    · intro insert found
      obtain ⟨newNodeId, before, written⟩ := sound.insert insert found
      refine ⟨newNodeId, before, fun done => ⟨(written done).1, ?_⟩⟩
      -- the tuple of the insert under way is not counted yet
      have last := (written done).2
      have count := sound.count
      unfold IndexState.codeWritten at count
      rw [found] at count
      simp only [done, if_true] at count
      rw [List.getLast?_eq_getElem?, count, Nat.add_sub_cancel] at last
      rw [List.getLast?_eq_getElem?, length_markBodies, count, Nat.add_sub_cancel, markBodies,
        List.getElem?_mapIdx, last, Option.map_some]
      refine congrArg some (if_neg fun both => ?_)
      exact absurd both.1 (lt_irrefl _)
  · rw [deleted]
    refine counted.trans ?_
    rw [show fresh.liveTuples = 0 from rfl, Nat.zero_add, ← items, mapped.items chain]
    conv_rhs => rw [← List.take_append_drop left blocks, blockItems_append, List.map_append,
      List.countP_append]
    refine (Nat.add_zero _).symm.trans (congrArg _ (List.countP_eq_zero.mpr ?_).symm)
    intro tuple member counts
    obtain ⟨old, inside, rfl⟩ := List.mem_map.mp member
    obtain ⟨block, dropped, onPage⟩ := List.mem_flatMap.mp inside
    obtain ⟨page, there, -⟩ := chain.kind_eq (List.mem_of_mem_drop dropped)
    rw [there] at onPage
    have out : block ∉ blocks.take left := fun taken =>
      List.disjoint_take_drop chain.nodup le_rfl taken dropped
    have beyond := behind block (List.mem_of_mem_drop dropped) out page there old onPage
    rw [untouched old beyond] at counts
    simp only [countsTuple, Bool.and_eq_true, decide_eq_true_eq] at counts
    exact absurd counts.1.2 (not_lt.mpr beyond)

/-- What inserts and vacuums keep where no failed insert leaves a code tuple. -/
structure WalkSound (index tupleSize : Nat) (state : IndexState NodeBody) : Prop where
  holds : ∃ blocks bodies, CodeSound index tupleSize state blocks bodies

theorem bulkDelete_empty (tupleSize : Nat) (callback : HeapTid → Bool) (none' : state.nodeCount = 0) :
    (bulkDelete tupleSize callback state).2 = state ∧
      (bulkDelete tupleSize callback state).1.liveTuples = 0 := by
  rw [bulkDelete, if_pos (Or.inl none')]
  exact ⟨rfl, rfl⟩

theorem walkSound_step (positive : 0 < tupleSize) (sound : WalkSound index tupleSize state)
    {action : IndexAction} {after : IndexState NodeBody} (meets : LeavesNoTuple state action)
    (stepped : indexStep index tupleSize state action = some after) :
    WalkSound index tupleSize after := by
  obtain ⟨blocks, bodies, code⟩ := sound.holds
  cases action with
  | insert action =>
    rw [indexStep] at stepped
    split_ifs at stepped
    obtain ⟨blocks', bodies', step⟩ :=
      codeSound_step code positive (fun failed => meets action rfl failed) stepped
    exact ⟨blocks', bodies', step.sound⟩
  | vacuum callback =>
    obtain rfl := Option.some.inj stepped
    rcases Nat.eq_zero_or_pos state.nodeCount with none' | some'
    · rw [(bulkDelete_empty tupleSize callback none').1]
      exact sound
    · exact ⟨blocks, _, (code.walked some').sound⟩

theorem WalkSound.complete (sound : WalkSound index tupleSize state) (callback : HeapTid → Bool) :
    VacuumComplete callback (bulkDelete tupleSize callback state).1
      (bulkDelete tupleSize callback state).2 := by
  obtain ⟨blocks, bodies, code⟩ := sound.holds
  rcases Nat.eq_zero_or_pos state.nodeCount with none' | some'
  · obtain ⟨same, live⟩ := bulkDelete_empty tupleSize callback none'
    refine ⟨fun tuple _ inside => ?_, ?_⟩
    · rw [same, none'] at inside
      exact absurd inside (Nat.not_lt_zero _)
    · rw [live, same, none']
      rfl
  · have walked : Walked index tupleSize callback state blocks bodies := code.walked some'
    have after := walked.nodeCount
    have current := walked.sound.current (after.symm ▸ some')
    have tuples := walked.sound.codeTuples_eq
    have vectors := walked.sound.vectorOf_eq
    rw [current] at tuples vectors
    refine ⟨fun tuple member inside live => ?_, ?_⟩
    · rw [tuples] at member
      obtain ⟨id, bound, rfl⟩ := List.getElem_of_mem member
      have found := tuplesOf_getElem (markBodies state.nodeCount callback bodies) id
      have entry : (markBodies state.nodeCount callback bodies)[id]? =
          (bodies[id]?).map (markBody state.nodeCount callback id) := List.getElem?_mapIdx ..
      rw [List.getElem?_eq_getElem bound, entry] at found
      cases there : bodies[id]? with
      | none =>
        rw [there] at found
        cases found
      | some body =>
        rw [there, Option.map_some, Option.map_some, Option.some.injEq] at found
        rw [found] at inside live ⊢
        have inside : id < state.nodeCount := after ▸ inside
        by_contra reported
        have marked : markBody state.nodeCount callback id body = { body with dead := true } := by
          refine if_pos ⟨inside, ?_⟩
          by_contra silent
          have kept : markBody state.nodeCount callback id body = body :=
            if_neg fun both => silent both.2
          exact reported (by rw [kept]; exact Bool.eq_false_iff.mpr silent)
        rw [marked] at live
        cases live
    · rw [walked.live, after, countP_tuplesOf]
      · refine congrArg List.length (List.filter_congr fun id _ => ?_)
        rw [vectors]
      · rw [length_markBodies, code.count]
        exact Nat.le_add_right _ _

/-- **Where no failed insert leaves a code tuple every vacuum is complete.** -/
theorem vacuumComplete_reached {dataBytes : Nat} {start : IndexState NodeBody}
    (built : Built (codeTupleSize dataBytes) bodies start)
    (reached : ReachedBy (indexStep index (codeTupleSize dataBytes)) LeavesNoTuple start state)
    (callback : HeapTid → Bool) :
    VacuumComplete callback (bulkDelete (codeTupleSize dataBytes) callback state).1
      (bulkDelete (codeTupleSize dataBytes) callback state).2 := by
  have positive : 0 < codeTupleSize dataBytes := by
    unfold codeTupleSize
    omega
  have sound : WalkSound index (codeTupleSize dataBytes) state := by
    refine reached.invariant ?_ fun before meets stepped =>
      walkSound_step positive before meets stepped
    obtain ⟨others, final, codeStart, adjacency, kinds, ran, rfl⟩ := built.written
    obtain ⟨blocks, code, -⟩ := @codeSound_built _ index _ _ _ _ _ positive kinds ran adjacency
    exact ⟨blocks, bodies, code⟩
  exact sound.complete callback

end System

/-! ### Two runs -/

section Runs

def wideTuple : Nat := codeTupleSize 4100

def firstBody : NodeBody := ⟨(1, 1), 0, false⟩

def wideNode : IndexState NodeBody :=
  builtIndex [emptyPage .other, ⟨some .quantCode, [codeTuple 0 firstBody], none⟩] (some 1) 1
    [⟨0, 0, []⟩]

theorem wideNode_built : Built wideTuple [firstBody] wideNode := by
  refine ⟨⟨[emptyPage .other], _, _, _, by decide, rfl, rfl⟩, ?_⟩
  intro tuple member
  obtain rfl := List.mem_singleton.mp member
  exact ⟨Nat.one_pos, fun neighbor none => nomatch none⟩

def insertActions (body : NodeBody) : List IndexAction :=
  [.insert (.start 0 body [[]]), .insert .code, .insert .adjacency, .insert .publish]

instance (state : IndexState NodeBody) (action : IndexAction) :
    Decidable (LeavesNoTuple state action) :=
  match action with
  | .insert .fail => decidable_of_iff (state.nodeCount = 0 ∨ state.codeWritten = false)
      ⟨fun left inner same _ => left, fun all => all _ rfl rfl⟩
  | .insert (.start _ _ _) | .insert (.reciprocal _ _) | .insert .code | .insert .adjacency
  | .insert .publish | .insert (.repair _ _) | .insert (.turn _ _) | .insert (.leave _)
  | .insert (.extend _) | .insert (.rewrite _ _) =>
    isTrue fun inner same failed => by subst failed; cases same
  | .vacuum _ => isTrue fun _ same => nomatch same

/-- A vacuum behind an insert that failed early and one that ended. -/
theorem vacuumComplete_retry : ∃ state,
    ReachedBy (indexStep 1 wideTuple) LeavesNoTuple wideNode state ∧ state.nodeCount = 2 ∧
      VacuumComplete (fun tid => tid == (1, 2))
        (bulkDelete wideTuple (fun tid => tid == (1, 2)) state).1
        (bulkDelete wideTuple (fun tid => tid == (1, 2)) state).2 := by
  have run : runMeeting (indexStep 1 wideTuple) LeavesNoTuple wideNode
      (.insert (.start 0 ⟨(1, 3), 0, false⟩ [[]]) :: .insert .fail ::
        insertActions ⟨(1, 2), 0, false⟩) = some _ := rfl
  have reached := reachedBy_of_runMeeting run
  exact ⟨_, reached, rfl, vacuumComplete_reached wideNode_built reached _⟩

/-- **A failure behind the code tuple**: the walk ends at the orphan, and the node of the next
insert stays live under its reported heap tuple. -/
theorem vacuum_missesOrphaned : ∃ state,
    Reached (indexStep 1 wideTuple) wideNode state ∧ state.writing = none ∧
      ¬ VacuumComplete (fun tid => tid == (1, 2))
        (bulkDelete wideTuple (fun tid => tid == (1, 2)) state).1
        (bulkDelete wideTuple (fun tid => tid == (1, 2)) state).2 := by
  have run : runActions (indexStep 1 wideTuple) wideNode
      (.insert (.start 0 ⟨(1, 3), 0, false⟩ [[]]) :: .insert .code :: .insert .fail ::
        insertActions ⟨(1, 2), 0, false⟩) = some _ := rfl
  refine ⟨_, reached_of_run run, rfl, fun vacuum => ?_⟩
  have missed := vacuum.complete (codeTuple 1 ⟨(1, 2), 0, false⟩)
    (List.mem_of_getElem? (i := 2) rfl) (by decide) rfl
  exact absurd missed (by decide)

end Runs

end TurboHybrid.CodeChain
