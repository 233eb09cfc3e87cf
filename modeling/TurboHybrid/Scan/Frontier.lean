/-
**The frontier of the WAND loop.**

After the nodes before a frontier are done, the active iterators are those of the frontier: each
term's iterator at the term's first scorable posting from the frontier on.

* `opened_seek`: seeking the iterators of one frontier gives those of a later one;
* `scorePivot_eq`: the pivot is scored in full;
* `Frontier.sum_bounds_take`: the iterators before a pivot bound the first chunks ahead of it.
-/
import TurboHybrid.Scan.Exhaustive

set_option linter.unusedSectionVars false

namespace TurboHybrid.Scan

open TurboHybrid.Index TurboHybrid.Query TurboHybrid.Library

variable {R : Type*} [Field R] [LinearOrder R] [IsStrictOrderedRing R]

/-! ### The iterators of a frontier -/

/-- A term's iterator at its first scorable posting from a node on. -/
def iteratorAt (log : R → R) (corpus : ScoringMeta R) (docs : DocState) (start : Nat)
    (term : SearchTerm) : Option (PostingIterator R) :=
  term.lexicon.bind fun entry =>
    (locate docs start (entry.chain.chunks corpus)).map fun cursor =>
      ⟨term.term.matchBit, entry.termId, term.idf log corpus, some cursor⟩

def opened (log : R → R) (corpus : ScoringMeta R) (docs : DocState) (terms : List SearchTerm)
    (start : Nat) : List (PostingIterator R) :=
  terms.filterMap (iteratorAt log corpus docs start)

def validIterator (iterator : PostingIterator R) : Bool :=
  iterator.cursor.isSome && iteratorNodeId iterator != uint32Max

section Frontier

variable {log : R → R} {corpus : ScoringMeta R} {docs : DocState} {terms : List SearchTerm}
  {start target : Nat} {term : SearchTerm} {iterator : PostingIterator R}

theorem openIterator_eq (term : SearchTerm) :
    openIterator log corpus docs term = iteratorAt log corpus docs 0 term := by
  unfold openIterator iteratorAt
  congr 1
  funext entry
  rw [init_locate docs (chunks_sorted corpus entry.chain)]

structure StandsAt (log : R → R) (corpus : ScoringMeta R) (docs : DocState) (start : Nat)
    (term : SearchTerm) (iterator : PostingIterator R) (posting : Posting) : Prop where
  current : iteratorPosting iterator = some posting
  nodeId : iteratorNodeId iterator = posting.nodeId
  inside : posting ∈ term.postings
  from_start : start ≤ posting.nodeId
  scorable : docs.scorable posting.nodeId = true
  least : ∀ other ∈ term.postings, start ≤ other.nodeId → docs.scorable other.nodeId = true →
    posting.nodeId ≤ other.nodeId
  idf : iterator.idf = term.idf log corpus
  matchBit : iterator.matchBit = term.term.matchBit

theorem before_eq_false {posting : Posting} : before docs start posting = false ↔
    start ≤ posting.nodeId ∧ docs.scorable posting.nodeId = true := by
  simp [before]

theorem iteratorAt_stands (found : iteratorAt log corpus docs start term = some iterator) :
    ∃ posting, StandsAt log corpus docs start term iterator posting := by
  obtain ⟨entry, lexicon, rest⟩ := Option.bind_eq_some_iff.mp found
  obtain ⟨cursor, located, rfl⟩ := Option.map_eq_some_iff.mp rest
  have sorted := chunks_sorted corpus entry.chain
  have flat : (entry.chain.chunks corpus).flatMap Chunk.postings = term.postings := by
    rw [← chunks_postings corpus term, SearchTerm.chunks, lexicon]
    rfl
  obtain ⟨⟨passed, chunk, split, header, within, skipped⟩, posting, window, atHead, kept, least⟩ :=
    locate_spec sorted located
  have kept' := before_eq_false.mp kept
  refine ⟨posting, by simp [iteratorPosting, atHead], by simp [iteratorNodeId, cursorNodeId, atHead],
    ?_, kept'.1, kept'.2, fun other member from_start scorable => ?_, rfl, rfl⟩
  · rw [← flat, split, List.flatMap_append, List.flatMap_cons]
    exact List.mem_append_right _ (List.mem_append_left _ (within (atHead ▸ List.mem_cons_self)))
  · exact least other (flat ▸ member) (before_eq_false.mpr ⟨from_start, scorable⟩)

theorem iteratorAt_none (missing : iteratorAt log corpus docs start term = none)
    {posting : Posting} (member : posting ∈ term.postings) (from_start : start ≤ posting.nodeId) :
    docs.scorable posting.nodeId = false := by
  by_contra scorable
  have kept : before docs start posting = false :=
    before_eq_false.mpr ⟨from_start, by simpa using scorable⟩
  cases lexicon : term.lexicon with
  | none => simp [SearchTerm.postings, lexicon] at member
  | some entry =>
    simp only [iteratorAt, lexicon, Option.bind_some, Option.map_eq_none_iff] at missing
    have flat : (entry.chain.chunks corpus).flatMap Chunk.postings = term.postings := by
      rw [← chunks_postings corpus term, SearchTerm.chunks, lexicon]
      rfl
    rw [locate_none.mp missing posting (flat ▸ member)] at kept
    cases kept

theorem iteratorAt_valid (found : iteratorAt log corpus docs start term = some iterator) :
    validIterator iterator = true := by
  obtain ⟨posting, stands⟩ := iteratorAt_stands found
  obtain ⟨entry, lexicon, rest⟩ := Option.bind_eq_some_iff.mp found
  obtain ⟨cursor, located, rfl⟩ := Option.map_eq_some_iff.mp rest
  have bound := DocState.scorable_lt stands.scorable
  have limit := docs.nodeCount_lt
  have different : posting.nodeId ≠ uint32Max := by omega
  simp only [validIterator, stands.nodeId]
  simpa using different

theorem iteratorAt_seek (le : start ≤ target)
    (found : iteratorAt log corpus docs start term = some iterator) :
    (if validIterator (iteratorSeek docs target iterator) then
      some (iteratorSeek docs target iterator) else none) =
      iteratorAt log corpus docs target term := by
  obtain ⟨entry, lexicon, rest⟩ := Option.bind_eq_some_iff.mp found
  obtain ⟨cursor, located, rfl⟩ := Option.map_eq_some_iff.mp rest
  have moved := seekTo_locate le (chunks_sorted corpus entry.chain) located
  have destination : iteratorAt log corpus docs target term =
      (locate docs target (entry.chain.chunks corpus)).map fun cursor =>
        ⟨term.term.matchBit, entry.termId, term.idf log corpus, some cursor⟩ := by
    rw [iteratorAt, lexicon]
    rfl
  simp only [iteratorSeek, Option.bind_some, moved]
  cases there : locate docs target (entry.chain.chunks corpus) with
  | none => simp [destination, there, validIterator]
  | some cursor' =>
    rw [there, Option.map_some] at destination
    rw [if_pos (iteratorAt_valid destination), destination]

theorem iteratorAt_stays (le : start ≤ target)
    (found : iteratorAt log corpus docs start term = some iterator)
    (past : target ≤ iteratorNodeId iterator) : iteratorSeek docs target iterator = iterator := by
  obtain ⟨entry, lexicon, rest⟩ := Option.bind_eq_some_iff.mp found
  obtain ⟨cursor, located, rfl⟩ := Option.map_eq_some_iff.mp rest
  have moved := seekTo_locate le (chunks_sorted corpus entry.chain) located
  have stays : locate docs target (entry.chain.chunks corpus) =
      locate docs start (entry.chain.chunks corpus) := by
    refine locate_stable le fun other same => ?_
    rw [located, Option.some.injEq] at same
    exact same ▸ past
  simp only [iteratorSeek, Option.bind_some, moved, stays, located]

/-- **Seeking the iterators of a frontier** gives those of the target. -/
theorem opened_seek (le : start ≤ target) :
    ((opened log corpus docs terms start).map (iteratorSeek docs target)).filter validIterator =
      opened log corpus docs terms target := by
  induction terms with
  | nil => rfl
  | cons head rest ih =>
    cases found : iteratorAt log corpus docs start head with
    | none =>
      have gone : iteratorAt log corpus docs target head = none := by
        cases later : iteratorAt log corpus docs target head with
        | none => rfl
        | some iterator =>
          obtain ⟨posting, stands⟩ := iteratorAt_stands later
          have dead := iteratorAt_none found stands.inside (le.trans stands.from_start)
          rw [stands.scorable] at dead
          cases dead
      simpa only [opened, List.filterMap_cons_none found, List.filterMap_cons_none gone] using ih
    | some iterator =>
      have moved := iteratorAt_seek le found
      simp only [opened, List.filterMap_cons_some found, List.map_cons, List.filter_cons]
      by_cases valid : validIterator (iteratorSeek docs target iterator) = true
      · rw [if_pos valid] at moved
        rw [if_pos valid, List.filterMap_cons_some moved.symm]
        exact congrArg _ ih
      · rw [if_neg valid] at moved
        rw [if_neg valid, List.filterMap_cons_none moved.symm]
        exact ih

theorem mem_opened : iterator ∈ opened log corpus docs terms start ↔
    ∃ term ∈ terms, iteratorAt log corpus docs start term = some iterator :=
  List.mem_filterMap

end Frontier

/-! ### The order of the active iterators -/

theorem activeBefore_le {one other : PostingIterator R} (before : activeBefore one other = true) :
    iteratorNodeId one ≤ iteratorNodeId other := by
  unfold activeBefore at before
  split_ifs at before with less more
  · exact less.le
  · exact not_lt.mp more

theorem activeBefore_total (one other : PostingIterator R) :
    activeBefore one other = true ∨ activeBefore other one = true := by
  unfold activeBefore
  rcases lt_trichotomy (iteratorNodeId one) (iteratorNodeId other) with less | same | more
  · simp [less]
  · simpa [same] using Nat.le_total one.termId other.termId
  · simp [more]

theorem activeBefore_trans {one other third : PostingIterator R}
    (first : activeBefore one other = true) (second : activeBefore other third = true) :
    activeBefore one third = true := by
  have le := activeBefore_le first
  have le' := activeBefore_le second
  unfold activeBefore at first second ⊢
  split_ifs at first second ⊢ <;> simp at first second ⊢ <;> omega

theorem sortActive_ordered (active : List (PostingIterator R)) :
    (sortActive active).Pairwise fun one other => iteratorNodeId one ≤ iteratorNodeId other := by
  have total : Std.Total fun one other : PostingIterator R => activeBefore one other = true :=
    ⟨activeBefore_total⟩
  have transitive : IsTrans (PostingIterator R) fun one other => activeBefore one other = true :=
    ⟨fun _ _ _ => activeBefore_trans⟩
  exact (List.pairwise_insertionSort _ active).imp activeBefore_le

theorem sortActive_perm (active : List (PostingIterator R)) : (sortActive active).Perm active :=
  List.perm_insertionSort _ active

/-- The active iterators are those of the frontier, in node order. -/
structure Frontier (log : R → R) (ctx : ScanContext R) (terms : List SearchTerm) (start : Nat)
    (active : List (PostingIterator R)) : Prop where
  perm : active.Perm (opened log ctx.corpus ctx.docs terms start)
  ordered : active.Pairwise fun one other => iteratorNodeId one ≤ iteratorNodeId other

section Active

variable {log : R → R} {ctx : ScanContext R} {terms : List SearchTerm} {start target : Nat}
  {active : List (PostingIterator R)}

theorem wandStart_frontier (acc : Accumulator R) :
    Frontier log ctx terms 0 (wandStart log ctx terms acc).active := by
  refine ⟨(sortActive_perm _).trans ?_, sortActive_ordered _⟩
  have same : openIterator log ctx.corpus ctx.docs = iteratorAt log ctx.corpus ctx.docs 0 :=
    funext openIterator_eq
  rw [opened, same]

theorem Frontier.seek (frontier : Frontier log ctx terms start active) (le : start ≤ target) :
    Frontier log ctx terms target
      (refreshActiveOrder (active.map (iteratorSeek ctx.docs target))) := by
  refine ⟨(sortActive_perm _).trans ?_, sortActive_ordered _⟩
  rw [← opened_seek le]
  exact (frontier.perm.map _).filter _

theorem Frontier.stays (frontier : Frontier log ctx terms start active) (le : start ≤ target)
    {iterator : PostingIterator R} (member : iterator ∈ active)
    (past : target ≤ iteratorNodeId iterator) :
    iteratorSeek ctx.docs target iterator = iterator := by
  obtain ⟨term, -, found⟩ := mem_opened.mp (frontier.perm.mem_iff.mp member)
  exact iteratorAt_stays le found past

theorem Frontier.stands (frontier : Frontier log ctx terms start active)
    {iterator : PostingIterator R} (member : iterator ∈ active) :
    ∃ term ∈ terms, ∃ posting, StandsAt log ctx.corpus ctx.docs start term iterator posting := by
  obtain ⟨term, inside, found⟩ := mem_opened.mp (frontier.perm.mem_iff.mp member)
  exact ⟨term, inside, iteratorAt_stands found⟩

theorem StandsAt.document {corpus : ScoringMeta R} {docs : DocState} {term : SearchTerm}
    {iterator : PostingIterator R} {posting : Posting}
    (stands : StandsAt log corpus docs start term iterator posting) (inside : term ∈ terms) :
    iteratorNodeId iterator ∈ documents docs terms := by
  rw [stands.nodeId, mem_documents]
  exact ⟨stands.scorable, term, inside, termAt_iff.mpr ⟨posting, stands.inside, rfl⟩⟩

theorem Frontier.covers (frontier : Frontier log ctx terms start active) {nodeId : Nat}
    (document : nodeId ∈ documents ctx.docs terms) (le : start ≤ nodeId) :
    ∃ iterator ∈ active, iteratorNodeId iterator ≤ nodeId := by
  obtain ⟨scorable, term, inside, at'⟩ := mem_documents.mp document
  obtain ⟨posting, member, rfl⟩ := termAt_iff.mp at'
  cases found : iteratorAt log ctx.corpus ctx.docs start term with
  | none =>
    rw [iteratorAt_none found member le] at scorable
    cases scorable
  | some iterator =>
    obtain ⟨head, stands⟩ := iteratorAt_stands found
    refine ⟨iterator, frontier.perm.mem_iff.mpr (mem_opened.mpr ⟨term, inside, found⟩), ?_⟩
    rw [stands.nodeId]
    exact stands.least posting member le scorable

theorem Frontier.leave (frontier : Frontier log ctx terms start active) {pivotNode : Nat}
    (le : start ≤ pivotNode) (valid : pivotNode ≠ uint32Max)
    (least : ∀ iterator ∈ active, pivotNode ≤ iteratorNodeId iterator) :
    Frontier log ctx terms (pivotNode + 1) (leavePivot ctx.docs pivotNode active) := by
  have moved : (active.map fun iterator =>
      if iteratorNodeId iterator = pivotNode then iteratorAdvancePast ctx.docs pivotNode iterator
      else iterator) = active.map (iteratorSeek ctx.docs (pivotNode + 1)) := by
    refine List.map_congr_left fun iterator member => ?_
    by_cases here : iteratorNodeId iterator = pivotNode
    · rw [if_pos here, iteratorAdvancePast, if_neg valid]
    · have := least iterator member
      rw [if_neg here, frontier.stays (by omega) member (by omega)]
  rw [leavePivot, moved]
  exact frontier.seek (by omega)

theorem Frontier.skip (frontier : Frontier log ctx terms start active) {pivot : Nat}
    (le : start ≤ target)
    (past : ∀ iterator ∈ active.drop pivot, target ≤ iteratorNodeId iterator) :
    Frontier log ctx terms target (refreshActiveOrder
      ((active.take pivot).map (iteratorSeek ctx.docs target) ++ active.drop pivot)) := by
  have moved : (active.take pivot).map (iteratorSeek ctx.docs target) ++ active.drop pivot =
      active.map (iteratorSeek ctx.docs target) := by
    have tail : (active.drop pivot).map (iteratorSeek ctx.docs target) = active.drop pivot := by
      refine (List.map_congr_left fun iterator member => ?_).trans (List.map_id _)
      exact frontier.stays le (List.mem_of_mem_drop member) (past iterator member)
    conv_rhs => rw [← List.take_append_drop pivot active, List.map_append, tail]
  rw [moved]
  exact frontier.seek le

/-! ### Scoring the pivot -/

def iteratorScore (ctx : ScanContext R) (nodeId : Nat) (iterator : PostingIterator R) : R :=
  match iteratorPosting iterator with
  | some posting =>
    if posting.nodeId = nodeId then
      postingScoreDecoded ctx.corpus iterator.idf (avgDocLen ctx.corpus) posting
        (ctx.docs.docLen nodeId)
    else 0
  | none => 0

def iteratorStandsOn (nodeId : Nat) (iterator : PostingIterator R) : Bool :=
  match iteratorPosting iterator with
  | some posting => posting.nodeId == nodeId
  | none => false

theorem scorePivot_sum (ctx : ScanContext R) (pivotNode : Nat) (active : List (PostingIterator R)) :
    scorePivot ctx pivotNode active =
      ((active.map (iteratorScore ctx pivotNode)).sum,
        orAll ((active.filter (iteratorStandsOn pivotNode)).map PostingIterator.matchBit)) := by
  unfold scorePivot
  suffices gathered : ∀ (score : R) (mask : Nat), List.foldl _ (score, mask) active =
      (score + (active.map (iteratorScore ctx pivotNode)).sum,
        mask ||| orAll ((active.filter (iteratorStandsOn pivotNode)).map
          PostingIterator.matchBit)) from
    (gathered 0 0).trans (by rw [zero_add, Nat.zero_or])
  intro score mask
  induction active generalizing score mask with
  | nil => simp [orAll]
  | cons head rest ih =>
    rw [List.foldl_cons, List.map_cons, List.sum_cons, List.filter_cons]
    cases current : iteratorPosting head with
    | none => simp [ih, iteratorScore, iteratorStandsOn, current]
    | some posting =>
      by_cases here : posting.nodeId = pivotNode
      · simp [ih, iteratorScore, iteratorStandsOn, current, here, orAll_cons, add_assoc,
          Nat.or_assoc]
      · simp [ih, iteratorScore, iteratorStandsOn, current, here]

theorem termPostings_sorted (term : SearchTerm) :
    term.postings.Pairwise fun one other => one.nodeId < other.nodeId := by
  cases found : term.lexicon with
  | none => simp [SearchTerm.postings, found]
  | some entry => exact (by simp [SearchTerm.postings, found] : entry.chain.postings = term.postings) ▸
      entry.chain.sorted

theorem postingsAt_eq {term : SearchTerm} {posting : Posting} (member : posting ∈ term.postings) :
    postingsAt posting.nodeId term = [posting] := by
  have sorted := termPostings_sorted term
  obtain ⟨front, back, split⟩ := List.append_of_mem member
  rw [split, List.pairwise_append, List.pairwise_cons] at sorted
  have before : front.filter (fun other => other.nodeId == posting.nodeId) = [] :=
    List.filter_eq_nil_iff.mpr fun other inside => by
      have := sorted.2.2 other inside posting List.mem_cons_self
      simp
      omega
  have after : back.filter (fun other => other.nodeId == posting.nodeId) = [] :=
    List.filter_eq_nil_iff.mpr fun other inside => by
      have := sorted.2.1.1 other inside
      simp
      omega
  rw [postingsAt, split, List.filter_append, List.filter_cons_of_pos (by simp), before, after]
  rfl

theorem termScore_of_missing {nodeId : Nat} {term : SearchTerm}
    (missing : ∀ posting ∈ term.postings, posting.nodeId ≠ nodeId) :
    termScore log ctx nodeId term = 0 := by
  have none : postingsAt nodeId term = [] :=
    List.filter_eq_nil_iff.mpr fun posting member => by simpa using missing posting member
  rw [termScore, none]
  rfl

theorem termScore_of_mem {term : SearchTerm} {posting : Posting}
    (member : posting ∈ term.postings) :
    termScore log ctx posting.nodeId term = postingContribution log ctx term posting := by
  rw [termScore, postingsAt_eq member]
  simp

theorem iteratorScore_eq {nodeId : Nat} (scorable : ctx.docs.scorable nodeId = true)
    (le : start ≤ nodeId) {term : SearchTerm}
    (least : ∀ iterator, iteratorAt log ctx.corpus ctx.docs start term = some iterator →
      nodeId ≤ iteratorNodeId iterator) :
    ((iteratorAt log ctx.corpus ctx.docs start term).map (iteratorScore ctx nodeId)).getD 0 =
      termScore log ctx nodeId term := by
  cases found : iteratorAt log ctx.corpus ctx.docs start term with
  | none =>
    rw [termScore_of_missing]
    · rfl
    · rintro posting member rfl
      rw [iteratorAt_none found member le] at scorable
      cases scorable
  | some iterator =>
    obtain ⟨posting, stands⟩ := iteratorAt_stands found
    have past := stands.nodeId ▸ least iterator found
    by_cases here : posting.nodeId = nodeId
    · subst here
      rw [termScore_of_mem stands.inside, postingContribution, ← stands.idf]
      simp [iteratorScore, stands.current]
    · rw [termScore_of_missing]
      · simp [iteratorScore, stands.current, here]
      · rintro other member rfl
        have := stands.least other member le scorable
        omega

theorem iteratorStandsOn_iff {nodeId : Nat} (scorable : ctx.docs.scorable nodeId = true)
    (le : start ≤ nodeId) {term : SearchTerm}
    (least : ∀ iterator, iteratorAt log ctx.corpus ctx.docs start term = some iterator →
      nodeId ≤ iteratorNodeId iterator) :
    termAt nodeId term = true ↔ ∃ iterator,
      iteratorAt log ctx.corpus ctx.docs start term = some iterator ∧
        iteratorStandsOn nodeId iterator = true := by
  rw [termAt_iff]
  constructor
  · rintro ⟨posting, member, rfl⟩
    cases found : iteratorAt log ctx.corpus ctx.docs start term with
    | none =>
      rw [iteratorAt_none found member le] at scorable
      cases scorable
    | some iterator =>
      obtain ⟨head, stands⟩ := iteratorAt_stands found
      have past := stands.nodeId ▸ least iterator found
      have first := stands.least posting member le scorable
      refine ⟨iterator, rfl, ?_⟩
      simp only [iteratorStandsOn, stands.current, beq_iff_eq]
      omega
  · rintro ⟨iterator, found, here⟩
    obtain ⟨head, stands⟩ := iteratorAt_stands found
    refine ⟨head, stands.inside, ?_⟩
    simpa [iteratorStandsOn, stands.current] using here

theorem sum_opened (value : PostingIterator R → R) :
    ((opened log ctx.corpus ctx.docs terms start).map value).sum =
      (terms.map fun term =>
        ((iteratorAt log ctx.corpus ctx.docs start term).map value).getD 0).sum := by
  induction terms with
  | nil => rfl
  | cons head rest ih =>
    rw [opened] at ih
    rw [opened, List.map_cons, List.sum_cons]
    cases found : iteratorAt log ctx.corpus ctx.docs start head with
    | none => simpa [List.filterMap_cons_none found] using ih
    | some iterator => simpa [List.filterMap_cons_some found] using ih

/-- **The pivot is scored in full**, over every term that has it. -/
theorem scorePivot_eq (frontier : Frontier log ctx terms start active) {nodeId : Nat}
    (scorable : ctx.docs.scorable nodeId = true) (le : start ≤ nodeId)
    (least : ∀ iterator ∈ active, nodeId ≤ iteratorNodeId iterator) :
    scorePivot ctx nodeId active = (fullScore log ctx terms nodeId, fullMask terms nodeId) := by
  have ahead (term : SearchTerm) (member : term ∈ terms) (iterator : PostingIterator R)
      (found : iteratorAt log ctx.corpus ctx.docs start term = some iterator) :
      nodeId ≤ iteratorNodeId iterator :=
    least iterator (frontier.perm.mem_iff.mpr (mem_opened.mpr ⟨term, member, found⟩))
  rw [scorePivot_sum, Prod.mk.injEq]
  constructor
  · rw [(frontier.perm.map _).sum_eq, sum_opened, fullScore]
    exact congrArg _ (List.map_congr_left fun term member =>
      iteratorScore_eq scorable le (ahead term member))
  · refine orAll_eq_of_mem fun bit => ?_
    simp only [List.mem_map, List.mem_filter]
    constructor
    · rintro ⟨iterator, ⟨member, here⟩, rfl⟩
      obtain ⟨term, inside, found⟩ := mem_opened.mp (frontier.perm.mem_iff.mp member)
      obtain ⟨posting, stands⟩ := iteratorAt_stands found
      exact ⟨term, ⟨inside, (iteratorStandsOn_iff scorable le (ahead term inside)).mpr
        ⟨iterator, found, here⟩⟩, stands.matchBit.symm⟩
    · rintro ⟨term, ⟨inside, at'⟩, rfl⟩
      obtain ⟨iterator, found, here⟩ :=
        (iteratorStandsOn_iff scorable le (ahead term inside)).mp at'
      obtain ⟨posting, stands⟩ := iteratorAt_stands found
      exact ⟨iterator, ⟨frontier.perm.mem_iff.mpr (mem_opened.mpr ⟨term, inside, found⟩), here⟩,
        stands.matchBit⟩

end Active

/-! ### The bounds of a frontier -/

/-- The bound of the first chunk of a term that has a posting at one of the nodes. -/
def chunkBoundAt (log : R → R) (corpus : ScoringMeta R) (within : Nat → Bool) (term : SearchTerm) :
    R :=
  (((term.chunks corpus).find? fun chunk =>
    chunk.postings.any fun posting => within posting.nodeId).map
      (chunkUpperBound corpus (term.idf log corpus) (avgDocLen corpus))).getD 0

def ahead (docs : DocState) (start target : Nat) (nodeId : Nat) : Bool :=
  decide (start ≤ nodeId) && decide (nodeId < target) && docs.scorable nodeId

theorem ahead_iff {docs : DocState} {start target nodeId : Nat} :
    ahead docs start target nodeId = true ↔
      start ≤ nodeId ∧ nodeId < target ∧ docs.scorable nodeId = true := by
  simp [ahead, and_assoc]

theorem loadedChunk_upperBound (corpus : ScoringMeta R) (idf avgDocLen : R)
    (postings : List Posting) :
    chunkUpperBound corpus idf avgDocLen (loadedChunk (writePostingsChunk corpus postings)) =
      chunkUpperBound corpus idf avgDocLen (writePostingsChunk corpus postings) := by
  cases mode : corpus.tfNorm <;> simp [chunkUpperBound, loadedChunk, writePostingsChunk, mode]

theorem chunkBoundAt_congr (log : R → R) (corpus : ScoringMeta R) {within within' : Nat → Bool}
    {term : SearchTerm}
    (same : ∀ posting ∈ term.postings, within posting.nodeId = within' posting.nodeId) :
    chunkBoundAt log corpus within term = chunkBoundAt log corpus within' term := by
  have chunks : ∀ chunk ∈ term.chunks corpus,
      (chunk.postings.any fun posting => within posting.nodeId) =
        chunk.postings.any fun posting => within' posting.nodeId := by
    intro chunk member
    rw [Bool.eq_iff_iff, List.any_eq_true, List.any_eq_true]
    refine exists_congr fun posting => and_congr_right fun inside => ?_
    rw [same posting (chunks_postings corpus term ▸ List.mem_flatMap.mpr ⟨chunk, member, inside⟩)]
  have found : (term.chunks corpus).find? (fun chunk =>
      chunk.postings.any fun posting => within posting.nodeId) =
      (term.chunks corpus).find? fun chunk =>
        chunk.postings.any fun posting => within' posting.nodeId := by
    generalize term.chunks corpus = all at chunks
    induction all with
    | nil => rfl
    | cons head rest ih =>
      rw [List.find?_cons, List.find?_cons, chunks head List.mem_cons_self,
        ih fun chunk member => chunks chunk (List.mem_cons_of_mem _ member)]
  rw [chunkBoundAt, found, chunkBoundAt]

theorem chunkBoundAt_none {log : R → R} {corpus : ScoringMeta R} {within : Nat → Bool}
    {term : SearchTerm} (none : ∀ posting ∈ term.postings, within posting.nodeId = false) :
    chunkBoundAt log corpus within term = 0 := by
  have missing : (term.chunks corpus).find? (fun chunk =>
      chunk.postings.any fun posting => within posting.nodeId) = Option.none := by
    refine List.find?_eq_none.mpr fun chunk member some => ?_
    obtain ⟨posting, inside, here⟩ := List.any_eq_true.mp some
    rw [none posting (chunks_postings corpus term ▸ List.mem_flatMap.mpr ⟨chunk, member, inside⟩)]
      at here
    cases here
  rw [chunkBoundAt, missing]
  rfl

theorem chunk_written {corpus : ScoringMeta R} {term : SearchTerm} {chunk : Chunk R}
    (member : chunk ∈ term.chunks corpus) : ∃ run, chunk = writePostingsChunk corpus run := by
  cases found : term.lexicon with
  | none => simp [SearchTerm.chunks, found] at member
  | some entry =>
    simp only [SearchTerm.chunks, found, Option.map_some, Option.getD_some] at member
    obtain ⟨run, -, rfl⟩ := List.mem_map.mp member
    exact ⟨run, rfl⟩

theorem chunkBoundAt_nonneg {log : R → R} {corpus : ScoringMeta R} {term : SearchTerm}
    (idf_nonneg : 0 ≤ term.idf log corpus) (within : Nat → Bool) :
    0 ≤ chunkBoundAt log corpus within term := by
  unfold chunkBoundAt
  cases found : (term.chunks corpus).find? fun chunk =>
      chunk.postings.any fun posting => within posting.nodeId with
  | none => exact le_rfl
  | some chunk =>
    obtain ⟨run, rfl⟩ := chunk_written (List.mem_of_find?_eq_some found)
    exact chunkUpperBound_nonneg idf_nonneg run

section Bounds

variable {log : R → R} {ctx : ScanContext R} {terms : List SearchTerm} {start target : Nat}
  {active : List (PostingIterator R)} {term : SearchTerm} {iterator : PostingIterator R}

theorem iteratorAt_chunk (found : iteratorAt log ctx.corpus ctx.docs start term = some iterator) :
    ∃ passed run rest, term.chunks ctx.corpus =
        passed ++ writePostingsChunk ctx.corpus run :: rest ∧
      (∀ chunk ∈ passed, ∀ posting ∈ chunk.postings, before ctx.docs start posting = true) ∧
      (∃ posting ∈ run, posting.nodeId = iteratorNodeId iterator) ∧
      iteratorUpperBound ctx.corpus iterator = chunkUpperBound ctx.corpus
        (term.idf log ctx.corpus) (avgDocLen ctx.corpus) (writePostingsChunk ctx.corpus run) := by
  obtain ⟨entry, lexicon, rest⟩ := Option.bind_eq_some_iff.mp found
  obtain ⟨cursor, located, rfl⟩ := Option.map_eq_some_iff.mp rest
  obtain ⟨⟨passed, chunk, split, header, within, skipped⟩, posting, window, atHead, -, -⟩ :=
    locate_spec (chunks_sorted ctx.corpus entry.chain) located
  have chunks : term.chunks ctx.corpus = entry.chain.chunks ctx.corpus := by
    rw [SearchTerm.chunks, lexicon]
    rfl
  have member : chunk ∈ entry.chain.chunks ctx.corpus := split ▸ by simp
  obtain ⟨run, -, rfl⟩ := List.mem_map.mp member
  refine ⟨passed, run, cursor.rest, chunks.trans split, skipped, ⟨posting, ?_, ?_⟩, ?_⟩
  · exact within (atHead ▸ List.mem_cons_self)
  · simp [iteratorNodeId, cursorNodeId, atHead]
  · simp only [iteratorUpperBound, header, loadedChunk_upperBound]

/-- An iterator's bound is that of its term's first chunk ahead, when it stands before the target. -/
theorem iteratorAt_bound :
    ((iteratorAt log ctx.corpus ctx.docs start term).map fun iterator =>
      if iteratorNodeId iterator < target then iteratorUpperBound ctx.corpus iterator else 0).getD 0 =
      chunkBoundAt log ctx.corpus (ahead ctx.docs start target) term := by
  cases found : iteratorAt log ctx.corpus ctx.docs start term with
  | none =>
    refine (chunkBoundAt_none fun posting member => ?_).symm
    rw [← Bool.not_eq_true, ahead_iff]
    rintro ⟨le, -, scorable⟩
    rw [iteratorAt_none found member le] at scorable
    cases scorable
  | some iterator =>
    obtain ⟨head, stands⟩ := iteratorAt_stands found
    simp only [Option.map_some, Option.getD_some]
    by_cases near : iteratorNodeId iterator < target
    · obtain ⟨passed, run, rest, split, skipped, ⟨posting, inside, here⟩, bound⟩ :=
        iteratorAt_chunk found
      have gone : passed.find? (fun chunk =>
          chunk.postings.any fun posting => ahead ctx.docs start target posting.nodeId) = none := by
        refine List.find?_eq_none.mpr fun chunk member some => ?_
        obtain ⟨other, there, within⟩ := List.any_eq_true.mp some
        obtain ⟨le, -, scorable⟩ := ahead_iff.mp within
        have passed' := skipped chunk member other there
        rw [before_eq_false.mpr ⟨le, scorable⟩] at passed'
        cases passed'
      have stops : ((writePostingsChunk ctx.corpus run).postings.any fun posting =>
          ahead ctx.docs start target posting.nodeId) = true := by
        refine List.any_eq_true.mpr ⟨posting, inside, ahead_iff.mpr ?_⟩
        rw [here]
        exact ⟨stands.nodeId ▸ stands.from_start, near, stands.nodeId ▸ stands.scorable⟩
      rw [if_pos near, bound, chunkBoundAt, split, List.find?_append, gone, Option.none_or,
        List.find?_cons, stops]
      rfl
    · rw [if_neg near]
      refine (chunkBoundAt_none fun posting member => ?_).symm
      rw [← Bool.not_eq_true, ahead_iff]
      rintro ⟨le, less, scorable⟩
      have := stands.least posting member le scorable
      have := stands.nodeId
      omega

theorem Frontier.bound_nonneg (frontier : Frontier log ctx terms start active)
    (idf_nonneg : ∀ term ∈ terms, 0 ≤ term.idf log ctx.corpus) (member : iterator ∈ active) :
    0 ≤ iteratorUpperBound ctx.corpus iterator := by
  obtain ⟨term, inside, found⟩ := mem_opened.mp (frontier.perm.mem_iff.mp member)
  obtain ⟨-, run, -, -, -, -, bound⟩ := iteratorAt_chunk found
  exact bound ▸ chunkUpperBound_nonneg (idf_nonneg term inside) run

theorem Frontier.sum_bounds (frontier : Frontier log ctx terms start active) (target : Nat) :
    (terms.map (chunkBoundAt log ctx.corpus (ahead ctx.docs start target))).sum =
      (active.map fun iterator =>
        if iteratorNodeId iterator < target then iteratorUpperBound ctx.corpus iterator
        else 0).sum := by
  rw [(frontier.perm.map _).sum_eq, sum_opened]
  exact congrArg _ (List.map_congr_left fun term _ => iteratorAt_bound.symm)

theorem Frontier.sum_bounds_take (frontier : Frontier log ctx terms start active)
    (idf_nonneg : ∀ term ∈ terms, 0 ≤ term.idf log ctx.corpus) {pivot : Nat}
    (past : ∀ iterator ∈ active.drop pivot, target ≤ iteratorNodeId iterator) :
    (terms.map (chunkBoundAt log ctx.corpus (ahead ctx.docs start target))).sum ≤
      ((active.take pivot).map (iteratorUpperBound ctx.corpus)).sum := by
  rw [frontier.sum_bounds target]
  have tail : ((active.drop pivot).map fun iterator =>
      if iteratorNodeId iterator < target then iteratorUpperBound ctx.corpus iterator
      else 0).sum = 0 := by
    refine List.sum_eq_zero fun value member => ?_
    obtain ⟨iterator, inside, rfl⟩ := List.mem_map.mp member
    exact if_neg (not_lt.mpr (past iterator inside))
  conv_lhs => rw [← List.take_append_drop pivot active, List.map_append, List.sum_append, tail,
    add_zero]
  refine List.sum_le_sum fun iterator member => ?_
  split_ifs
  · exact le_rfl
  · exact frontier.bound_nonneg idf_nonneg (List.mem_of_mem_take member)

theorem Frontier.sum_bounds_all (frontier : Frontier log ctx terms start active) :
    (terms.map (chunkBoundAt log ctx.corpus (ahead ctx.docs start ctx.docs.nodeCount))).sum =
      (active.map (iteratorUpperBound ctx.corpus)).sum := by
  rw [frontier.sum_bounds]
  refine congrArg _ (List.map_congr_left fun iterator member => if_pos ?_)
  obtain ⟨term, -, posting, stands⟩ := frontier.stands member
  exact stands.nodeId ▸ DocState.scorable_lt stands.scorable

end Bounds

end TurboHybrid.Scan
