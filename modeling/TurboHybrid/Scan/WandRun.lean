/-
**Runs of the WAND loop.**

One round moves the frontier, and either skips the documents up to it or scores the one before it.

* `wandStep_some`, `wandStep_none`: what one round does, and what it means that there is none;
* `wandLoop_run`: an invariant that rounds keep holds when the loop ends.
-/
import TurboHybrid.Scan.Frontier

set_option linter.unusedSectionVars false

namespace TurboHybrid.Scan

open TurboHybrid.Index TurboHybrid.Query TurboHybrid.Library

variable {R : Type*} [Field R] [LinearOrder R] [IsStrictOrderedRing R]

/-! ### The pivot -/

section Pivot

variable {corpus : ScoringMeta R} {few : Bool} {threshold : R}

theorem findPivot_none {active : List (PostingIterator R)} {upperBound : R}
    (nonempty : active ≠ []) (missing : findPivot corpus few threshold active upperBound = none) :
    few = false ∧
      upperBound + (active.map (iteratorUpperBound corpus)).sum ≤ threshold := by
  induction active generalizing upperBound with
  | nil => exact absurd rfl nonempty
  | cons head rest ih =>
    simp only [findPivot] at missing
    by_cases reached : few = true ∨ threshold < upperBound + iteratorUpperBound corpus head
    · rw [if_pos reached] at missing
      cases missing
    · rw [if_neg reached, Option.map_eq_none_iff] at missing
      obtain ⟨many, below⟩ := not_or.mp reached
      rw [List.map_cons, List.sum_cons, ← add_assoc]
      cases rest with
      | nil => exact ⟨by simpa using many, by simpa using not_lt.mp below⟩
      | cons _ _ => exact ih (List.cons_ne_nil _ _) missing

theorem findPivot_some {active : List (PostingIterator R)} {upperBound : R} {pivot : Nat}
    (found : findPivot corpus few threshold active upperBound = some pivot) :
    pivot < active.length ∧ (0 < pivot → few = false ∧
      upperBound + ((active.take pivot).map (iteratorUpperBound corpus)).sum ≤ threshold) := by
  induction active generalizing upperBound pivot with
  | nil => cases found
  | cons head rest ih =>
    simp only [findPivot] at found
    by_cases reached : few = true ∨ threshold < upperBound + iteratorUpperBound corpus head
    · rw [if_pos reached, Option.some.injEq] at found
      subst found
      exact ⟨Nat.succ_pos _, fun positive => absurd positive (lt_irrefl 0)⟩
    · rw [if_neg reached, Option.map_eq_some_iff] at found
      obtain ⟨pivot, later, rfl⟩ := found
      obtain ⟨many, below⟩ := not_or.mp reached
      obtain ⟨inside, bounded⟩ := ih later
      refine ⟨Nat.succ_lt_succ inside, fun _ => ?_⟩
      rw [List.take_succ_cons, List.map_cons, List.sum_cons, ← add_assoc]
      refine ⟨by simpa using many, ?_⟩
      rcases Nat.eq_zero_or_pos pivot with rfl | positive
      · simpa using not_lt.mp below
      · exact (bounded positive).2

theorem findPivot_stops {active : List (PostingIterator R)} {upperBound : R}
    (nonneg : ∀ iterator ∈ active, 0 ≤ iteratorUpperBound corpus iterator)
    (within : upperBound + (active.map (iteratorUpperBound corpus)).sum ≤ threshold) :
    findPivot corpus false threshold active upperBound = none := by
  induction active generalizing upperBound with
  | nil => rfl
  | cons head rest ih =>
    have later (iterator : PostingIterator R) (member : iterator ∈ rest) :
        0 ≤ iteratorUpperBound corpus iterator := nonneg iterator (List.mem_cons_of_mem _ member)
    have rest_nonneg : 0 ≤ (rest.map (iteratorUpperBound corpus)).sum := by
      refine List.sum_nonneg fun value member => ?_
      obtain ⟨iterator, inside, rfl⟩ := List.mem_map.mp member
      exact later iterator inside
    rw [List.map_cons, List.sum_cons, ← add_assoc] at within
    have below : ¬(false = true ∨ threshold < upperBound + iteratorUpperBound corpus head) := by
      simp only [Bool.false_eq_true, false_or, not_lt]
      linarith
    simp only [findPivot]
    rw [if_neg below, ih later within]
    rfl

end Pivot

/-! ### Rounds -/

section Rounds

variable (log : R → R) (ctx : ScanContext R) (terms : List SearchTerm)

/-- A round that skips the documents up to a target. -/
structure Skips (start target : Nat) (state next : WandState R) : Prop where
  further : start < target
  inside : target ≤ ctx.docs.nodeCount
  frontier : Frontier log ctx terms target next.active
  acc : next.acc = state.acc
  many : ctx.k ≤ state.acc.touchedCount
  bounded : (terms.map (chunkBoundAt log ctx.corpus (ahead ctx.docs start target))).sum ≤
    kthScore state.acc ctx.k

def visit (acc : Accumulator R) (nodeId : Nat) : Accumulator R :=
  let score := fullScore log ctx terms nodeId
  let matchedTerms := fullMask terms nodeId
  if ctx.accepts matchedTerms &&
      (decide (acc.touchedCount < ctx.k) || decide (kthScore acc ctx.k < score)) then
    addTermScore acc nodeId score matchedTerms
  else acc

/-- A round that visits the least document from the frontier on. -/
structure Visits (start nodeId : Nat) (state next : WandState R) : Prop where
  document : nodeId ∈ documents ctx.docs terms
  from_start : start ≤ nodeId
  least : ∀ other ∈ documents ctx.docs terms, start ≤ other → nodeId ≤ other
  frontier : Frontier log ctx terms (nodeId + 1) next.active
  acc : next.acc = visit log ctx terms state.acc nodeId

/-- No round is left: no document, or none that the bounds let in. -/
structure Stopped (start : Nat) (acc : Accumulator R) : Prop where
  rest : (∀ nodeId ∈ documents ctx.docs terms, nodeId < start) ∨
    ctx.k ≤ acc.touchedCount ∧
      (terms.map (chunkBoundAt log ctx.corpus (ahead ctx.docs start ctx.docs.nodeCount))).sum ≤
        kthScore acc ctx.k

end Rounds

section Round

variable {log : R → R} {ctx : ScanContext R} {terms : List SearchTerm} {start : Nat}
  {state next : WandState R}

theorem Frontier.node_valid (frontier : Frontier log ctx terms start state.active)
    {iterator : PostingIterator R} (member : iterator ∈ state.active) :
    start ≤ iteratorNodeId iterator ∧ iteratorNodeId iterator < ctx.docs.nodeCount ∧
      iteratorNodeId iterator ≠ uint32Max := by
  obtain ⟨term, -, posting, stands⟩ := frontier.stands member
  have limit := ctx.docs.nodeCount_lt
  have bound := DocState.scorable_lt stands.scorable
  have from_start := stands.from_start
  rw [stands.nodeId]
  omega

theorem Frontier.map_seek (frontier : Frontier log ctx terms start state.active) {nodeId : Nat}
    (le : start ≤ nodeId) (least : ∀ iterator ∈ state.active, nodeId ≤ iteratorNodeId iterator) :
    state.active.map (iteratorSeek ctx.docs nodeId) = state.active :=
  (List.map_congr_left fun iterator member =>
    frontier.stays le member (least iterator member)).trans (List.map_id _)

/-- **One round** skips documents or visits one. -/
theorem wandStep_some (unfused : ctx.fusedBound = none)
    (idf_nonneg : ∀ term ∈ terms, 0 ≤ term.idf log ctx.corpus)
    (frontier : Frontier log ctx terms start state.active) (moved : wandStep ctx state = some next) :
    (∃ target, Skips log ctx terms start target state next) ∨
      ∃ nodeId, Visits log ctx terms start nodeId state next := by
  cases opening : state.active with
  | nil => simp [wandStep, opening] at moved
  | cons first rest =>
    simp only [wandStep, opening] at moved
    rw [← opening] at moved
    cases found : findPivot ctx.corpus (decide (state.acc.touchedCount < ctx.k))
        (kthScore state.acc ctx.k) state.active 0 with
    | none => simp [found] at moved
    | some pivot =>
      obtain ⟨inside, bounded⟩ := findPivot_some found
      have atPivot := List.getElem?_eq_getElem inside
      have member := List.getElem_mem inside
      have firstMember : first ∈ state.active := opening ▸ List.mem_cons_self
      have ordered := frontier.ordered
      have least : ∀ iterator ∈ state.active, iteratorNodeId first ≤ iteratorNodeId iterator := by
        rw [opening, List.pairwise_cons] at ordered
        intro iterator inside
        rcases List.mem_cons.mp (opening ▸ inside) with rfl | later
        · exact le_rfl
        · exact ordered.1 iterator later
      obtain ⟨from_start, below, valid⟩ := frontier.node_valid member
      simp only [found, atPivot, Option.map_some, Option.getD_some, if_neg valid, unfused,
        canPruneCandidate, Bool.false_eq_true, if_false] at moved
      set pivotNode := iteratorNodeId state.active[pivot] with pivotNode_eq
      by_cases here : iteratorNodeId first = pivotNode
      · right
        rw [here] at least
        obtain ⟨term, inTerms, posting, stands⟩ := frontier.stands member
        have scorable : ctx.docs.scorable pivotNode = true := by
          rw [pivotNode_eq, stands.nodeId]
          exact stands.scorable
        have stays := frontier.map_seek from_start least
        have standing : (state.active.any fun iterator => iteratorNodeId iterator == pivotNode) =
            true := List.any_eq_true.mpr ⟨_, member, by simp [pivotNode_eq]⟩
        rw [if_pos here, stays, scorePivot_eq frontier scorable from_start least,
          Option.some.injEq] at moved
        subst moved
        refine ⟨pivotNode, stands.document inTerms, from_start, fun other document le => ?_,
          frontier.leave from_start valid least, ?_⟩
        · obtain ⟨iterator, inActive, past⟩ := frontier.covers document le
          exact (least iterator inActive).trans past
        · simp only [standing, Bool.true_and, visit]
      · left
        rw [if_neg here, Option.some.injEq] at moved
        subst moved
        have positive : 0 < pivot := by
          refine Nat.pos_of_ne_zero fun zero => here ?_
          subst zero
          simp [pivotNode_eq, opening]
        have past : ∀ iterator ∈ state.active.drop pivot, pivotNode ≤ iteratorNodeId iterator := by
          intro iterator later
          rw [List.drop_eq_getElem_cons inside] at later
          rcases List.mem_cons.mp later with rfl | later
          · exact le_rfl
          · have tail := ordered.sublist (List.drop_sublist pivot _)
            rw [List.drop_eq_getElem_cons inside, List.pairwise_cons] at tail
            exact tail.1 iterator later
        obtain ⟨many, within⟩ := bounded positive
        have before := lt_of_le_of_ne (least _ member) here
        have opens := (frontier.node_valid firstMember).1
        refine ⟨pivotNode, by omega, below.le, frontier.skip from_start past, rfl, ?_, ?_⟩
        · simpa using many
        · rw [zero_add] at within
          exact (frontier.sum_bounds_take idf_nonneg past).trans within

/-- **Without a round** no document is left that the bounds let in. -/
theorem wandStep_none (unfused : ctx.fusedBound = none)
    (frontier : Frontier log ctx terms start state.active) (ended : wandStep ctx state = none) :
    Stopped log ctx terms start state.acc := by
  cases opening : state.active with
  | nil =>
    refine ⟨Or.inl fun nodeId document => not_le.mp fun le => ?_⟩
    obtain ⟨iterator, member, -⟩ := frontier.covers document le
    rw [opening] at member
    cases member
  | cons first rest =>
    simp only [wandStep, opening] at ended
    rw [← opening] at ended
    cases found : findPivot ctx.corpus (decide (state.acc.touchedCount < ctx.k))
        (kthScore state.acc ctx.k) state.active 0 with
    | none =>
      obtain ⟨many, within⟩ := findPivot_none (opening ▸ List.cons_ne_nil _ _) found
      refine ⟨Or.inr ⟨by simpa using many, ?_⟩⟩
      rw [frontier.sum_bounds_all]
      simpa using within
    | some pivot =>
      obtain ⟨inside, -⟩ := findPivot_some found
      have atPivot := List.getElem?_eq_getElem inside
      obtain ⟨-, -, valid⟩ := frontier.node_valid (List.getElem_mem inside)
      simp only [found, atPivot, Option.map_some, Option.getD_some, if_neg valid, unfused,
        canPruneCandidate, Bool.false_eq_true, if_false] at ended
      split_ifs at ended

theorem wandStep_stops (idf_nonneg : ∀ term ∈ terms, 0 ≤ term.idf log ctx.corpus)
    (frontier : Frontier log ctx terms start state.active)
    (many : ctx.k ≤ state.acc.touchedCount)
    (within : (terms.map
        (chunkBoundAt log ctx.corpus (ahead ctx.docs start ctx.docs.nodeCount))).sum ≤
      kthScore state.acc ctx.k) : wandStep ctx state = none := by
  cases opening : state.active with
  | nil => simp [wandStep, opening]
  | cons first rest =>
    have stops : findPivot ctx.corpus (decide (state.acc.touchedCount < ctx.k))
        (kthScore state.acc ctx.k) state.active 0 = none := by
      rw [decide_eq_false (not_lt.mpr many)]
      refine findPivot_stops (fun iterator member => frontier.bound_nonneg idf_nonneg member) ?_
      rwa [zero_add, ← frontier.sum_bounds_all]
    rw [opening] at stops
    simp [wandStep, opening, stops]

end Round

/-! ### Runs -/

section Run

variable {log : R → R} {ctx : ScanContext R} {terms : List SearchTerm}

/-- **Runs keep what rounds keep**, and end stopped. -/
theorem wandLoop_run (unfused : ctx.fusedBound = none)
    (idf_nonneg : ∀ term ∈ terms, 0 ≤ term.idf log ctx.corpus)
    {Inv : Nat → Accumulator R → Prop}
    (skip : ∀ start target state next, Inv start state.acc →
      Skips log ctx terms start target state next → Inv target next.acc)
    (visit : ∀ start nodeId state next, Inv start state.acc →
      Visits log ctx terms start nodeId state next → Inv (nodeId + 1) next.acc)
    {fuel start : Nat} {state : WandState R} (inside : start ≤ ctx.docs.nodeCount)
    (enough : ctx.docs.nodeCount < fuel + start)
    (frontier : Frontier log ctx terms start state.active) (holds : Inv start state.acc) :
    ∃ stop, Inv stop (wandLoop ctx fuel state).acc ∧
      Stopped log ctx terms stop (wandLoop ctx fuel state).acc := by
  induction fuel generalizing start state with
  | zero => omega
  | succ fuel ih =>
    cases moved : wandStep ctx state with
    | none =>
      simp only [wandLoop, moved]
      exact ⟨start, holds, wandStep_none unfused frontier moved⟩
    | some next =>
      simp only [wandLoop, moved]
      rcases wandStep_some unfused idf_nonneg frontier moved with ⟨target, skips⟩ | ⟨nodeId, visits⟩
      · have further := skips.further
        exact ih skips.inside (by omega) skips.frontier (skip start target state next holds skips)
      · have bound := DocState.scorable_lt (mem_documents.mp visits.document).1
        have from_start := visits.from_start
        exact ih bound (by omega) visits.frontier (visit start nodeId state next holds visits)

theorem scoreBaseWand_run (unfused : ctx.fusedBound = none)
    (idf_nonneg : ∀ term ∈ terms, 0 ≤ term.idf log ctx.corpus)
    {Inv : Nat → Accumulator R → Prop}
    (skip : ∀ start target state next, Inv start state.acc →
      Skips log ctx terms start target state next → Inv target next.acc)
    (visit : ∀ start nodeId state next, Inv start state.acc →
      Visits log ctx terms start nodeId state next → Inv (nodeId + 1) next.acc)
    {acc : Accumulator R} (holds : Inv 0 acc) :
    ∃ stop, Inv stop (scoreBaseWand log ctx terms acc).2 ∧
      Stopped log ctx terms stop (scoreBaseWand log ctx terms acc).2 :=
  wandLoop_run unfused idf_nonneg skip visit (Nat.zero_le _) (by omega) (wandStart_frontier acc)
    holds

end Run

end TurboHybrid.Scan
