/-
**Inserts that fail.**

An insert that fails takes back neither its code tuple nor the references to its node, and the next
insert takes the same node id.

* `insertAtomic_reached`: where no failing insert leaves either, each node has one code tuple on the
  page of its id, and every reference is to a node with the vector it was written for;
* `failedInsert_orphans`: after a failure behind the code tuple two tuples have one id, and a
  neighbour refers to a vector that is not its own.
-/
import TurboHybrid.Graph.CodeChain

namespace TurboHybrid.CodeChain

open TurboHybrid.Library

variable {Body : Type}

/-- **As if failed inserts had never started**: one code tuple for each node, on the page that its id
names, and references to nodes with the vectors they were written for. -/
structure InsertAtomic (tupleSize : Nat) (state : IndexState Body) : Prop where
  unique : ∀ id < state.nodeCount,
    ((codeTuples state.pages state.codeStart).filter fun tuple => tuple.nodeId == id).length = 1
  placed : ∃ blocks, IsChain .quantCode state.pages state.codeStart blocks ∧
    ∀ id < state.nodeCount, ∃ block page tuple, blocks[id / tuplesPerPage tupleSize]? = some block ∧
      state.pages[block]? = some page ∧ tuple ∈ page.items ∧ tuple.nodeId = id
  references : ∀ tuple ∈ state.adjacency, ∀ neighbor ∈ tuple.neighbors,
    neighbor.id < state.nodeCount ∧
      neighbor.vector = vectorOf state.pages state.codeStart neighbor.id

/-- A step leaves nothing of a failed insert: it fails before its code tuple and without a reference
to its node, or before there is a node. -/
def LeavesNothing (state : IndexState Body) (action : InsertAction Body) : Prop :=
  action = .fail → state.nodeCount = 0 ∨ state.codeWritten = false ∧
    ∀ insert, state.writing = some insert → ∀ tuple ∈ state.adjacency,
      ∀ neighbor ∈ tuple.neighbors, neighbor.id ≠ insert.newNodeId

instance (state : IndexState Body) (action : InsertAction Body) :
    Decidable (LeavesNothing state action) :=
  match action with
  | .fail =>
    decidable_of_iff
      (state.nodeCount = 0 ∨ state.codeWritten = false ∧
        ∀ insert ∈ state.writing.toList, ∀ tuple ∈ state.adjacency,
          ∀ neighbor ∈ tuple.neighbors, neighbor.id ≠ insert.newNodeId)
      (by simp [LeavesNothing])
  | .start _ _ _ | .reciprocal _ _ | .code | .adjacency | .publish | .repair _ _ | .turn _ _
  | .leave _ | .extend _ | .rewrite _ _ => isTrue fun failed => nomatch failed

/-- An index after its build: no other code pages, and adjacency tuples of its nodes. -/
structure Built (tupleSize : Nat) (bodies : List Body) (state : IndexState Body) : Prop where
  written : ∃ others final start adjacency, (∀ page ∈ others, page.kind ≠ some .quantCode) ∧
    writeCodePages tupleSize others bodies = .ok (final, start) ∧
    state = builtIndex final start bodies.length adjacency
  edges : ∀ tuple ∈ state.adjacency, tuple.nodeId < bodies.length ∧
    ∀ neighbor ∈ tuple.neighbors, neighbor.id < bodies.length ∧
      neighbor.vector = bodies[neighbor.id]?

section References

variable {index tupleSize : Nat} {state after : IndexState Body} {blocks : List Nat}
  {bodies : List Body}

/-! ### The tuples of a sound chain -/

theorem CodeSound.codeTuples_eq (sound : CodeSound index tupleSize state blocks bodies) :
    codeTuples state.pages state.currentStart = tuplesOf bodies := by
  unfold codeTuples
  rw [readChain_items sound.chain sound.chain.length_le, sound.tuples]

theorem tuplesOf_filter (bodies : List Body) (id : Nat) :
    (tuplesOf bodies).filter (fun tuple => tuple.nodeId == id) =
      (bodies[id]?.map (codeTuple id)).toList := by
  induction bodies using List.reverseRecOn with
  | nil => rfl
  | append_singleton bodies body ih =>
    rw [tuplesOf_append, List.filter_append, ih]
    rcases Nat.lt_trichotomy id bodies.length with before | rfl | after
    · rw [List.getElem?_append_left before, List.filter_cons_of_neg (by simp [codeTuple]; omega)]
      exact List.append_nil _
    · rw [List.getElem?_concat_length, List.getElem?_eq_none (Nat.le_refl _)]
      simp [codeTuple]
    · rw [List.getElem?_eq_none after.le, List.getElem?_eq_none (by simp; omega),
        List.filter_cons_of_neg (by simp [codeTuple]; omega)]
      rfl

theorem CodeSound.vectorOf_eq (sound : CodeSound index tupleSize state blocks bodies) (id : Nat) :
    vectorOf state.pages state.currentStart id = bodies[id]? := by
  unfold vectorOf
  rw [sound.codeTuples_eq, tuplesOf_filter]
  cases bodies[id]? <;> rfl

theorem CodeSound.inside (sound : CodeSound index tupleSize state blocks bodies) {id : Nat}
    (below : id < state.nodeCount) : id < bodies.length := by
  rw [sound.count]
  exact Nat.lt_add_right _ below

theorem CodeSound.current (sound : CodeSound index tupleSize state blocks bodies)
    (some : 0 < state.nodeCount) : state.currentStart = state.codeStart := by
  unfold IndexState.currentStart
  cases here : state.writing with
  | none => rfl
  | some insert =>
    obtain ⟨-, before, written⟩ := sound.insert insert here
    cases fresh : insert.codeWritten with
    | false => exact before fresh
    | true =>
      rcases (written fresh).1 with none | same
      · exact absurd (sound.started.mp none) some.ne'
      · exact same

/-! ### The references -/

def Refers (nodeCount : Nat) (bodies : List Body) (neighbor : Neighbor Body) : Prop :=
  neighbor.id < nodeCount ∧ neighbor.vector = bodies[neighbor.id]?

/-- Every reference is to a node or to that of the insert under way, with its vector. -/
structure RefsSound (state : IndexState Body) (bodies : List Body) : Prop where
  adjacency : ∀ tuple ∈ state.adjacency, ∀ neighbor ∈ tuple.neighbors,
    Refers state.nodeCount bodies neighbor ∨ ∃ insert, state.writing = some insert ∧
      neighbor.id = insert.newNodeId ∧ neighbor.vector = some insert.body
  ownChain : ∀ insert, state.writing = some insert → ∀ tuple ∈ insert.ownChain,
    ∀ neighbor ∈ tuple.neighbors, Refers state.nodeCount bodies neighbor
  selected : ∀ insert, state.writing = some insert → ∀ ids ∈ insert.selected, ∀ id ∈ ids,
    id < state.nodeCount
  empty : state.nodeCount = 0 → state.adjacency = [] ∧ state.adjStarted = false

theorem Refers.nodes {nodeCount count : Nat} {bodies' : List Body} {neighbor : Neighbor Body}
    (refers : Refers nodeCount bodies neighbor) (more : nodeCount ≤ count)
    (nodes : ∀ id < count, bodies'[id]? = bodies[id]?) : Refers count bodies' neighbor := by
  have below := refers.1.trans_le more
  exact ⟨below, refers.2.trans (nodes _ below).symm⟩

theorem RefsSound.same (refs : RefsSound state bodies) {bodies' : List Body}
    (adjacency : after.adjacency = state.adjacency) (writing : after.writing = state.writing)
    (count : after.nodeCount = state.nodeCount) (started : after.adjStarted = state.adjStarted)
    (nodes : ∀ id < after.nodeCount, bodies'[id]? = bodies[id]?) : RefsSound after bodies' := by
  refine ⟨?_, ?_, ?_, ?_⟩
  · intro tuple member neighbor inside
    rw [adjacency] at member
    rw [writing]
    exact (refs.adjacency tuple member neighbor inside).imp_left
      fun refers => refers.nodes count.ge nodes
  · intro insert found tuple member neighbor inside
    rw [writing] at found
    exact (refs.ownChain insert found tuple member neighbor inside).nodes count.ge nodes
  · intro insert found
    rw [writing] at found
    rw [count]
    exact refs.selected insert found
  · rw [count, adjacency, started]
    exact refs.empty

/-- **What every step keeps of the references.** -/
theorem refsSound_step (refs : RefsSound state bodies)
    (sound : CodeSound index tupleSize state blocks bodies) (positive : 0 < tupleSize)
    {action : InsertAction Body} {blocks' : List Nat} {bodies' : List Body}
    (meets : LeavesNothing state action)
    (stepped : insertStep index tupleSize state action = some after)
    (code : CodeStep index tupleSize state after action blocks blocks' bodies bodies') :
    RefsSound after bodies' := by
  have nodes := code.nodes
  cases action with
  | start backend body selected =>
    simp only [insertStep] at stepped
    split_ifs at stepped with free
    obtain rfl := Option.some.inj stepped
    refine ⟨?_, ?_, ?_, refs.empty⟩
    · intro tuple member neighbor inside
      rcases refs.adjacency tuple member neighbor inside with old | ⟨insert, none, -⟩
      · exact Or.inl (old.nodes le_rfl nodes)
      · rw [Option.isNone_iff_eq_none.mp free.1] at none
        cases none
    · intro insert found tuple member
      obtain rfl := Option.some.inj found
      cases member
    · intro insert found
      obtain rfl := Option.some.inj found
      exact free.2.2
  | reciprocal position kept =>
    simp only [insertStep] at stepped
    split at stepped
    · rename_i insert old writing there
      split_ifs at stepped with allowed
      obtain rfl := Option.some.inj stepped
      refine ⟨?_, ?_, refs.selected, ?_⟩
      · intro tuple member neighbor inside
        have keep (neighbor : Neighbor Body)
            (refers : Refers state.nodeCount bodies neighbor ∨ ∃ insert,
              state.writing = some insert ∧ neighbor.id = insert.newNodeId ∧
                neighbor.vector = some insert.body) :
            Refers state.nodeCount bodies' neighbor ∨ ∃ insert, state.writing = some insert ∧
              neighbor.id = insert.newNodeId ∧ neighbor.vector = some insert.body :=
          refers.imp_left fun refers => refers.nodes le_rfl nodes
        rcases List.mem_or_eq_of_mem_set member with other | rfl
        · exact keep neighbor (refs.adjacency tuple other neighbor inside)
        · obtain ⟨id, -, found⟩ := List.mem_filterMap.mp inside
          split_ifs at found with new
          · obtain rfl := Option.some.inj found
            exact Or.inr ⟨insert, writing, rfl, rfl⟩
          · exact keep neighbor (refs.adjacency old (List.mem_of_getElem? there) neighbor
              (List.mem_of_find?_eq_some found))
      · intro insert found tuple member neighbor inside
        exact (refs.ownChain insert found tuple member neighbor inside).nodes le_rfl nodes
      · intro zero
        obtain ⟨none, unstarted⟩ := refs.empty zero
        rw [none] at there
        cases there
    · cases stepped
  | code =>
    simp only [insertStep] at stepped
    cases here : state.writing with
    | none =>
      rw [here] at stepped
      cases stepped
    | some insert =>
      rw [here] at stepped
      dsimp only at stepped
      split_ifs at stepped with fresh
      split at stepped
      · -- A tuple that fits no page: there are no nodes.
        rename_i refused appended
        obtain rfl := Option.some.inj stepped
        have zero : state.nodeCount = 0 := by
          rcases Nat.eq_zero_or_pos (perPage tupleSize) with large | room
          · have length := congrArg List.length sound.tuples
            rw [sound.blocks_nil large, length_tuplesOf, sound.count] at length
            exact Nat.eq_zero_of_add_eq_zero_right length.symm
          · have placed := sound.position insert.backend
            have chain := sound.chain
            unfold IndexState.currentStart at placed chain
            rw [here] at placed chain
            obtain ⟨result, added, done, -⟩ := @appendTuple_packed _ _ _ CodeKind.quantCode
              (perPage tupleSize) state.pages insert.codeStart blocks
              (codeTuple insert.newNodeId insert.body) (codeFits tupleSize) true
              (codeFits_eq positive) room _ chain sound.packed placed
            rw [done] at appended
            cases appended
        obtain ⟨none, unstarted⟩ := refs.empty zero
        refine ⟨?_, (fun _ none => by cases none), (fun _ none => by cases none), refs.empty⟩
        intro tuple member
        rw [show state.adjacency = [] from none] at member
        cases member
      · obtain rfl := Option.some.inj stepped
        refine ⟨?_, ?_, ?_, refs.empty⟩
        · intro tuple member neighbor inside
          rcases refs.adjacency tuple member neighbor inside with old | ⟨other, found, named⟩
          · exact Or.inl (old.nodes le_rfl nodes)
          · obtain rfl := Option.some.inj (here.symm.trans found)
            exact Or.inr ⟨_, rfl, named⟩
        · intro other found tuple member neighbor inside
          obtain rfl := Option.some.inj found
          exact (refs.ownChain insert here tuple member neighbor inside).nodes le_rfl nodes
        · intro other found
          obtain rfl := Option.some.inj found
          exact refs.selected insert here
  | adjacency =>
    simp only [insertStep] at stepped
    cases here : state.writing with
    | none =>
      rw [here] at stepped
      cases stepped
    | some insert =>
      rw [here] at stepped
      dsimp only at stepped
      split at stepped
      · cases stepped
      · rename_i ids level
        have added (neighbor : Neighbor Body)
            (inside : neighbor ∈ ids.map fun id =>
              (⟨id, vectorOf state.pages insert.codeStart id⟩ : Neighbor Body)) :
            Refers state.nodeCount bodies' neighbor := by
          obtain ⟨id, member, rfl⟩ := List.mem_map.mp inside
          have below := refs.selected insert here ids (List.mem_of_getElem? level) id member
          have vector := sound.vectorOf_eq id
          unfold IndexState.currentStart at vector
          rw [here] at vector
          refine Refers.nodes ⟨below, vector⟩ le_rfl ?_
          split_ifs at stepped <;> obtain rfl := Option.some.inj stepped <;> exact nodes
        split_ifs at stepped with written started
        · obtain rfl := Option.some.inj stepped
          refine ⟨?_, ?_, ?_, ?_⟩
          · intro tuple member neighbor inside
            rcases List.mem_append.mp member with old | new
            · rcases refs.adjacency tuple old neighbor inside with old | ⟨other, found, named⟩
              · exact Or.inl (old.nodes le_rfl nodes)
              · obtain rfl := Option.some.inj (here.symm.trans found)
                exact Or.inr ⟨_, rfl, named⟩
            · obtain rfl := List.mem_singleton.mp new
              exact Or.inl (added neighbor inside)
          · intro other found tuple member neighbor inside
            obtain rfl := Option.some.inj found
            exact (refs.ownChain insert here tuple member neighbor inside).nodes le_rfl nodes
          · intro other found
            obtain rfl := Option.some.inj found
            exact refs.selected insert here
          · intro zero
            have unstarted := (refs.empty zero).2
            rw [started] at unstarted
            cases unstarted
        · obtain rfl := Option.some.inj stepped
          refine ⟨?_, ?_, ?_, refs.empty⟩
          · intro tuple member neighbor inside
            rcases refs.adjacency tuple member neighbor inside with old | ⟨other, found, named⟩
            · exact Or.inl (old.nodes le_rfl nodes)
            · obtain rfl := Option.some.inj (here.symm.trans found)
              exact Or.inr ⟨_, rfl, named⟩
          · intro other found tuple member neighbor inside
            obtain rfl := Option.some.inj found
            rcases List.mem_append.mp member with old | new
            · exact (refs.ownChain insert here tuple old neighbor inside).nodes le_rfl nodes
            · obtain rfl := List.mem_singleton.mp new
              exact added neighbor inside
          · intro other found
            obtain rfl := Option.some.inj found
            exact refs.selected insert here
  | publish =>
    simp only [insertStep] at stepped
    cases here : state.writing with
    | none =>
      rw [here] at stepped
      cases stepped
    | some insert =>
      rw [here] at stepped
      dsimp only at stepped
      split_ifs at stepped with whole
      obtain rfl := Option.some.inj stepped
      obtain ⟨newNodeId, -, written⟩ := sound.insert insert here
      have more : state.nodeCount ≤ insert.newNodeId + 1 := newNodeId ▸ Nat.le_succ _
      have own : bodies[insert.newNodeId]? = some insert.body := by
        have last := (written whole.1).2
        have length := sound.count
        unfold IndexState.codeWritten at length
        rw [here] at length
        simp only [whole.1, if_true] at length
        rwa [List.getLast?_eq_getElem?, length, Nat.add_sub_cancel, ← newNodeId] at last
      refine ⟨?_, (fun _ none => by cases none), (fun _ none => by cases none),
        (by intro zero; cases zero)⟩
      intro tuple member neighbor inside
      refine Or.inl ?_
      rcases List.mem_append.mp member with old | new
      · rcases refs.adjacency tuple old neighbor inside with old | ⟨other, found, named, vector⟩
        · exact old.nodes more nodes
        · obtain rfl := Option.some.inj (here.symm.trans found)
          refine ⟨?_, ?_⟩
          · show neighbor.id < insert.newNodeId + 1
            rw [named]
            exact Nat.lt_succ_self _
          · rw [vector, named, nodes _ (Nat.lt_succ_self _), own]
      · exact (refs.ownChain insert here tuple new neighbor inside).nodes more nodes
  | fail =>
    obtain rfl := Option.some.inj stepped
    refine ⟨?_, (fun _ none => by cases none), (fun _ none => by cases none), refs.empty⟩
    intro tuple member neighbor inside
    rcases meets rfl with zero | ⟨-, absent⟩
    · rw [show state.adjacency = [] from (refs.empty zero).1] at member
      cases member
    · rcases refs.adjacency tuple member neighbor inside with old | ⟨insert, found, named, -⟩
      · exact Or.inl (old.nodes le_rfl nodes)
      · exact absurd named (absent insert found tuple member neighbor inside)
  | repair position kept =>
    simp only [insertStep] at stepped
    split at stepped
    · cases stepped
    · rename_i old there
      split_ifs at stepped with below
      obtain rfl := Option.some.inj stepped
      refine ⟨?_, ?_, refs.selected, ?_⟩
      · intro tuple member neighbor inside
        rcases List.mem_or_eq_of_mem_set member with other | rfl
        · exact (refs.adjacency tuple other neighbor inside).imp_left
            fun refers => refers.nodes le_rfl nodes
        · obtain ⟨id, keptId, rfl⟩ := List.mem_map.mp inside
          have inRange := below id keptId
          have vector := sound.vectorOf_eq id
          rw [sound.current (Nat.zero_lt_of_lt inRange)] at vector
          exact Or.inl (Refers.nodes ⟨inRange, vector⟩ le_rfl nodes)
      · intro insert found tuple member neighbor inside
        exact (refs.ownChain insert found tuple member neighbor inside).nodes le_rfl nodes
      · intro zero
        rw [(refs.empty zero).1] at there
        cases there
  | turn backend cursor =>
    simp only [insertStep] at stepped
    split_ifs at stepped
    obtain rfl := Option.some.inj stepped
    exact refs.same rfl rfl rfl rfl nodes
  | leave backend =>
    obtain rfl := Option.some.inj stepped
    exact refs.same rfl rfl rfl rfl nodes
  | extend page =>
    simp only [insertStep] at stepped
    split_ifs at stepped
    obtain rfl := Option.some.inj stepped
    exact refs.same rfl rfl rfl rfl nodes
  | rewrite block page =>
    simp only [insertStep] at stepped
    split at stepped
    · cases stepped
    · split_ifs at stepped
      obtain rfl := Option.some.inj stepped
      exact refs.same rfl rfl rfl rfl nodes

/-! ### Every run -/

/-- What runs keep in which no failed insert leaves anything. -/
structure IndexSound (index tupleSize : Nat) (state : IndexState Body) : Prop where
  holds : ∃ blocks bodies, CodeSound index tupleSize state blocks bodies ∧ RefsSound state bodies

theorem IndexSound.built (positive : 0 < tupleSize) (built : Built tupleSize bodies state) :
    IndexSound index tupleSize state := by
  obtain ⟨others, final, start, adjacency, kinds, ran, rfl⟩ := built.written
  obtain ⟨blocks, sound, -⟩ := @codeSound_built _ index _ _ _ _ _ positive kinds ran adjacency
  refine ⟨blocks, bodies, sound, ?_, (fun _ none => by cases none), (fun _ none => by cases none), ?_⟩
  · intro tuple member neighbor inside
    exact Or.inl ((built.edges tuple member).2 neighbor inside)
  · intro (zero : bodies.length = 0)
    refine ⟨List.eq_nil_iff_forall_not_mem.mpr fun tuple member => ?_, ?_⟩
    · have below := (built.edges tuple member).1
      rw [zero] at below
      exact absurd below (Nat.not_lt_zero _)
    · show decide (0 < bodies.length) = false
      rw [zero]
      rfl

theorem indexSound_step (positive : 0 < tupleSize) (sound : IndexSound index tupleSize state)
    {action : InsertAction Body} (meets : LeavesNothing state action)
    (stepped : insertStep index tupleSize state action = some after) :
    IndexSound index tupleSize after := by
  obtain ⟨blocks, bodies, code, refs⟩ := sound.holds
  obtain ⟨blocks', bodies', step⟩ :=
    codeSound_step code positive (fun failed => (meets failed).imp_right And.left) stepped
  exact ⟨blocks', bodies', step.sound, refsSound_step refs code positive meets stepped step⟩

theorem IndexSound.atomic (sound : IndexSound index tupleSize state)
    (rest : state.writing = none) : InsertAtomic tupleSize state := by
  obtain ⟨blocks, bodies, code, refs⟩ := sound.holds
  have current : state.currentStart = state.codeStart := by
    unfold IndexState.currentStart
    rw [rest]
  have tuples := code.codeTuples_eq
  have vectors := code.vectorOf_eq
  have chain := code.chain
  rw [current] at tuples vectors chain
  refine ⟨?_, ⟨blocks, chain, ?_⟩, ?_⟩
  · intro id below
    rw [tuples, tuplesOf_filter, List.getElem?_eq_getElem (code.inside below)]
    rfl
  · intro id below
    have inside := code.inside below
    have here : (blockItems state.pages blocks)[id]? = some (codeTuple id bodies[id]) := by
      rw [code.tuples, tuplesOf_getElem, List.getElem?_eq_getElem inside]
      rfl
    have room : 0 < perPage tupleSize := by
      rcases Nat.eq_zero_or_pos (perPage tupleSize) with large | room
      · rw [code.blocks_nil large] at here
        cases here
      · exact room
    rw [packed_getElem code.packed] at here
    obtain ⟨block, named, rest⟩ := Option.bind_eq_some_iff.mp here
    obtain ⟨page, there, item⟩ := Option.bind_eq_some_iff.mp rest
    refine ⟨block, page, _, ?_, there, List.mem_of_getElem? item, rfl⟩
    rwa [tuplesPerPage, max_eq_right (show 1 ≤ usableSpace / (tupleSize + 4) from room)]
  · intro tuple member neighbor inside
    rcases refs.adjacency tuple member neighbor inside with refers | ⟨insert, found, -⟩
    · exact ⟨refers.1, refers.2.trans (vectors _).symm⟩
    · rw [rest] at found
      cases found

/-- **Where no failing insert leaves anything, failed inserts are as if they had never started.** -/
theorem insertAtomic_reached {dataBytes : Nat} {start : IndexState Body}
    (built : Built (codeTupleSize dataBytes) bodies start)
    (reached : ReachedBy (insertStep index (codeTupleSize dataBytes)) LeavesNothing start state)
    (rest : state.writing = none) : InsertAtomic (codeTupleSize dataBytes) state := by
  have positive : 0 < codeTupleSize dataBytes := by
    unfold codeTupleSize
    omega
  have sound : IndexSound index (codeTupleSize dataBytes) state :=
    reached.invariant (IndexSound.built positive built)
      fun before meets stepped => indexSound_step positive before meets stepped
  exact sound.atomic rest

end References

/-! ### Two runs -/

def singleNode : IndexState Nat :=
  builtIndex [emptyPage .other, ⟨some .quantCode, [codeTuple 0 10], none⟩] (some 1) 1 [⟨0, 0, []⟩]

theorem singleNode_built : Built (codeTupleSize 100) [10] singleNode := by
  refine ⟨⟨[emptyPage .other], _, _, _, by decide, rfl, rfl⟩, ?_⟩
  intro tuple member
  obtain rfl := List.mem_singleton.mp member
  exact ⟨Nat.one_pos, fun neighbor none => nomatch none⟩

/-- An insert fails before it has written anything, and another one ends. -/
theorem insertAtomic_retry : ∃ state,
    ReachedBy (insertStep 1 (codeTupleSize 100)) LeavesNothing singleNode state ∧
      state.nodeCount = 2 ∧ InsertAtomic (codeTupleSize 100) state := by
  have run : runMeeting (insertStep 1 (codeTupleSize 100)) LeavesNothing singleNode
      [.start 0 20 [[0]], .fail, .start 0 30 [[0]], .reciprocal 0 [1], .code, .adjacency,
        .publish] = some _ := rfl
  have reached := reachedBy_of_runMeeting run
  exact ⟨_, reached, rfl, insertAtomic_reached singleNode_built reached rfl⟩

/-- **A failure behind the code tuple**: the next insert gives its vector the same node id, and the
neighbour of the failed one refers to it. -/
theorem failedInsert_orphans : ∃ state,
    Reached (insertStep 1 (codeTupleSize 100)) singleNode state ∧ state.writing = none ∧
      ((codeTuples state.pages state.codeStart).filter fun tuple => tuple.nodeId == 1).length = 2 ∧
      (∃ tuple ∈ state.adjacency, ∃ neighbor ∈ tuple.neighbors, neighbor.id = 1 ∧
        neighbor.vector = some 20 ∧ vectorOf state.pages state.codeStart 1 = some 30) ∧
      ¬ InsertAtomic (codeTupleSize 100) state := by
  have run : runActions (insertStep 1 (codeTupleSize 100)) singleNode
      [.start 0 20 [[0]], .reciprocal 0 [1], .code, .fail, .start 0 30 [[]], .code, .adjacency,
        .publish] = some _ := rfl
  refine ⟨_, reached_of_run run, rfl, rfl, ⟨_, List.mem_cons_self, _, List.mem_cons_self, rfl, rfl,
    rfl⟩, ?_⟩
  intro atomic
  have one := atomic.unique 1 (by decide)
  exact absurd one (by decide)

end TurboHybrid.CodeChain
