/-
**The conjunction driven by its rarest term.**

The iterator of the term with the least document frequency proposes its nodes one by one; the
others are sought to each of them in term order until one has no posting there. A node that all
have is offered with the sum of its scores.

* `scoreBaseAndRarestDriver`: the scorer;
* `verifyOthers_spec`: the verification of a node finds whether every term is at it, and its score;
* `scoreBaseAndRarestDriver_keeps`: it leaves a skim of the nodes that have every term.
-/
import TurboHybrid.Query.Eval
import TurboHybrid.Scan.WandExact

set_option linter.unusedSectionVars false

namespace TurboHybrid.Scan

open TurboHybrid.Index TurboHybrid.Query TurboHybrid.Library

variable {R : Type*} [Field R] [LinearOrder R] [IsStrictOrderedRing R]

/-! ### The scorer -/

/-- The first term with the least document frequency. -/
def chooseDriver : List SearchTerm → Nat → Option Nat → Nat → Option Nat
  | [], _, driver, _ => driver
  | term :: rest, termNo, driver, driverDf =>
    if term.df < driverDf then chooseDriver rest (termNo + 1) (some termNo) term.df
    else chooseDriver rest (termNo + 1) driver driverDf

/-- The iterators of all terms, if each has a live posting. -/
def openIterators (log : R → R) (corpus : ScoringMeta R) (docs : DocState) :
    List SearchTerm → Option (List (PostingIterator R))
  | [] => some []
  | term :: rest =>
    (openIterator log corpus docs term).bind fun iterator =>
      (openIterators log corpus docs rest).map fun iterators => iterator :: iterators

/-- Seek an iterator to a node, and the posting if it is there. -/
def iteratorSeekExact (docs : DocState) (target : Nat) (iterator : PostingIterator R) :
    PostingIterator R × Option Posting :=
  let iterator := iteratorSeek docs target iterator
  (iterator, if iteratorNodeId iterator = target then iteratorPosting iterator else none)

/-- The other iterators are sought to the driver's node; the first that misses it ends the walk. -/
def verifyOthers (ctx : ScanContext R) (driver nodeId : Nat) :
    Nat → R → List (PostingIterator R) → Option R × List (PostingIterator R)
  | _, score, [] => (some score, [])
  | termNo, score, iterator :: rest =>
    if termNo = driver then
      let (verified, rest) := verifyOthers ctx driver nodeId (termNo + 1) score rest
      (verified, iterator :: rest)
    else
      match iteratorSeekExact ctx.docs nodeId iterator with
      | (iterator, none) => (none, iterator :: rest)
      | (iterator, some posting) =>
        let score := score + postingScoreDecoded ctx.corpus iterator.idf (avgDocLen ctx.corpus)
          posting (ctx.docs.docLen nodeId)
        let (verified, rest) := verifyOthers ctx driver nodeId (termNo + 1) score rest
        (verified, iterator :: rest)

structure AndState (R : Type*) where
  iterators : List (PostingIterator R)
  acc : Accumulator R

/-- One round: the driver's node is verified, and the driver moves past it. -/
def andStep (ctx : ScanContext R) (requiredMask driver : Nat) (state : AndState R) :
    Option (AndState R) :=
  (state.iterators[driver]?).bind fun iterator =>
    (iteratorPosting iterator).bind fun posting =>
      let nodeId := iteratorNodeId iterator
      if nodeId = uint32Max then none
      else
        let threshold := kthScore state.acc ctx.k
        let score := postingScoreDecoded ctx.corpus iterator.idf (avgDocLen ctx.corpus) posting
          (ctx.docs.docLen nodeId)
        let (verified, iterators) := verifyOthers ctx driver nodeId 0 score state.iterators
        let acc :=
          match verified with
          | some score =>
            if state.acc.touchedCount < ctx.k ∨ threshold < score then
              addTermScore state.acc nodeId score requiredMask
            else state.acc
          | none => state.acc
        some ⟨iterators.set driver (iteratorAdvancePast ctx.docs nodeId iterator), acc⟩

/-- The rounds; each moves the driver on, so the node count bounds them. -/
def andLoop (ctx : ScanContext R) (requiredMask driver : Nat) : Nat → AndState R → AndState R
  | 0, state => state
  | fuel + 1, state =>
    match andStep ctx requiredMask driver state with
    | none => state
    | some next => andLoop ctx requiredMask driver fuel next

/-- The scorer: whether it takes the query, and the accumulator. -/
def scoreBaseAndRarestDriver (log : R → R) (ctx : ScanContext R) (eval : QueryEval)
    (terms : List SearchTerm) (acc : Accumulator R) : Bool × Accumulator R :=
  if eval.shape ≠ .pureAnd ∨ terms.length ≤ 1 then (false, acc)
  else if terms.any fun term => term.lexicon.isNone then (true, acc)
  else
    match chooseDriver terms 0 none uint32Max with
    | none => (true, acc)
    | some driver =>
      match openIterators log ctx.corpus ctx.docs terms with
      | none => (true, acc)
      | some iterators =>
        (true,
          (andLoop ctx eval.requiredMask driver (ctx.docs.nodeCount + 1) ⟨iterators, acc⟩).acc)

/-! ### The driver -/

/-- With a document frequency below the start there is a driver, and it is one of the terms. -/
theorem chooseDriver_spec {terms : List SearchTerm} {termNo driverDf : Nat} {driver : Option Nat}
    (some' : driver.isSome = true ∨ ∃ term ∈ terms, term.df < driverDf) :
    ∃ chosen, chooseDriver terms termNo driver driverDf = some chosen ∧
      (driver = some chosen ∨ termNo ≤ chosen ∧ chosen < termNo + terms.length) := by
  induction terms generalizing termNo driver driverDf with
  | nil =>
    obtain ⟨chosen, rfl⟩ := Option.isSome_iff_exists.mp (some'.resolve_right (by simp))
    exact ⟨chosen, rfl, Or.inl rfl⟩
  | cons term rest ih =>
    rw [chooseDriver, List.length_cons]
    by_cases less : term.df < driverDf
    · rw [if_pos less]
      obtain ⟨chosen, found, place⟩ :=
        @ih (termNo + 1) term.df (some termNo) (Or.inl rfl)
      refine ⟨chosen, found, Or.inr ?_⟩
      rcases place with here | later
      · obtain rfl := Option.some.inj here
        omega
      · omega
    · rw [if_neg less]
      have later : driver.isSome = true ∨ ∃ term ∈ rest, term.df < driverDf := by
        refine some'.imp id fun ⟨other, member, below⟩ => ?_
        rcases List.mem_cons.mp member with rfl | inside
        · exact absurd below less
        · exact ⟨other, inside, below⟩
      obtain ⟨chosen, found, place⟩ := ih later
      exact ⟨chosen, found, place.imp id fun bounds => by omega⟩

/-! ### Where an iterator stands -/

section Standing

variable {log : R → R} {corpus : ScoringMeta R} {docs : DocState} {start target : Nat}
  {term : SearchTerm} {iterator : PostingIterator R}

/-- The iterator of a term at its first live posting from a node on, or behind its last. -/
def Standing (log : R → R) (corpus : ScoringMeta R) (docs : DocState) (start : Nat)
    (term : SearchTerm) (iterator : PostingIterator R) : Prop :=
  ∃ entry, term.lexicon = some entry ∧ iterator =
    ⟨term.term.matchBit, entry.termId, term.idf log corpus,
      locate docs start (entry.chain.chunks corpus)⟩

theorem openIterator_standing (opened : openIterator log corpus docs term = some iterator) :
    Standing log corpus docs 0 term iterator := by
  obtain ⟨entry, lexicon, rest⟩ := Option.bind_eq_some_iff.mp opened
  obtain ⟨cursor, init, rfl⟩ := Option.map_eq_some_iff.mp rest
  rw [init_locate docs (chunks_sorted corpus entry.chain)] at init
  exact ⟨entry, lexicon, by rw [init]⟩

theorem Standing.iteratorAt_eq (standing : Standing log corpus docs start term iterator) :
    iteratorAt log corpus docs start term = iterator.cursor.map fun _ => iterator := by
  obtain ⟨entry, lexicon, rfl⟩ := standing
  rw [iteratorAt, lexicon, Option.bind_some]
  generalize locate docs start (entry.chain.chunks corpus) = place
  cases place with
  | none => rfl
  | some cursor => rfl

/-- **Seeking** moves the iterator to its place at the target. -/
theorem Standing.seek (standing : Standing log corpus docs start term iterator)
    (le : start ≤ target) :
    Standing log corpus docs target term (iteratorSeek docs target iterator) := by
  obtain ⟨entry, lexicon, rfl⟩ := standing
  refine ⟨entry, lexicon, ?_⟩
  have sorted := chunks_sorted corpus entry.chain
  have moved : (locate docs start (entry.chain.chunks corpus)).bind (iteratorSeekTo docs target) =
      locate docs target (entry.chain.chunks corpus) := by
    cases located : locate docs start (entry.chain.chunks corpus) with
    | none =>
      refine (locate_none.mpr fun posting member => ?_).symm
      exact before_mono le (locate_none.mp located posting member)
    | some cursor => exact seekTo_locate le sorted located
  rw [iteratorSeek, moved]

theorem Standing.stands (standing : Standing log corpus docs start term iterator)
    {posting : Posting} (current : iteratorPosting iterator = some posting) :
    StandsAt log corpus docs start term iterator posting := by
  obtain ⟨cursor, there, -⟩ := Option.bind_eq_some_iff.mp current
  have found := standing.iteratorAt_eq
  rw [there, Option.map_some] at found
  obtain ⟨other, stands⟩ := iteratorAt_stands found
  obtain rfl : other = posting := Option.some.inj (stands.current.symm.trans current)
  exact stands

theorem Standing.cursor_none (standing : Standing log corpus docs start term iterator)
    (current : iteratorPosting iterator = none) : iterator.cursor = none := by
  cases there : iterator.cursor with
  | none => rfl
  | some cursor =>
    have found := standing.iteratorAt_eq
    rw [there, Option.map_some] at found
    obtain ⟨other, stands⟩ := iteratorAt_stands found
    exact absurd (current.symm.trans stands.current) (Option.some_ne_none other).symm

theorem Standing.ended (standing : Standing log corpus docs start term iterator)
    (current : iteratorPosting iterator = none) {posting : Posting}
    (member : posting ∈ term.postings) (le : start ≤ posting.nodeId) :
    docs.scorable posting.nodeId = false := by
  have missing := standing.iteratorAt_eq
  rw [standing.cursor_none current, Option.map_none] at missing
  exact iteratorAt_none missing member le

/-- **Seeking a live node exactly** finds whether the term is at it, and with which score. -/
theorem Standing.seekExact {ctx : ScanContext R}
    (standing : Standing log ctx.corpus ctx.docs start term iterator) {nodeId : Nat}
    (le : start ≤ nodeId) (scorable : ctx.docs.scorable nodeId = true) :
    Standing log ctx.corpus ctx.docs nodeId term (iteratorSeekExact ctx.docs nodeId iterator).1 ∧
      match (iteratorSeekExact ctx.docs nodeId iterator).2 with
      | none => termAt nodeId term = false
      | some posting => termAt nodeId term = true ∧
        postingScoreDecoded ctx.corpus (iteratorSeekExact ctx.docs nodeId iterator).1.idf
          (avgDocLen ctx.corpus) posting (ctx.docs.docLen nodeId) = termScore log ctx nodeId term := by
  have moved := standing.seek le
  refine ⟨moved, ?_⟩
  simp only [iteratorSeekExact]
  have absent (missing : ∀ posting ∈ term.postings, posting.nodeId ≠ nodeId) :
      termAt nodeId term = false := by
    rw [← Bool.not_eq_true, termAt_iff]
    rintro ⟨posting, member, here⟩
    exact missing posting member here
  have bound := DocState.scorable_lt scorable
  have limit := ctx.docs.nodeCount_lt
  cases current : iteratorPosting (iteratorSeek ctx.docs nodeId iterator) with
  | none =>
    have different : iteratorNodeId (iteratorSeek ctx.docs nodeId iterator) ≠ nodeId := by
      rw [iteratorNodeId, moved.cursor_none current]
      exact (bound.trans_le limit).ne'
    rw [if_neg different]
    refine absent ?_
    rintro posting member rfl
    rw [moved.ended current member le_rfl] at scorable
    cases scorable
  | some posting =>
    have stands := moved.stands current
    rw [stands.nodeId]
    by_cases here : posting.nodeId = nodeId
    · rw [if_pos here]
      subst here
      refine ⟨termAt_iff.mpr ⟨posting, stands.inside, rfl⟩, ?_⟩
      rw [termScore_of_mem stands.inside, postingContribution, ← stands.idf]
    · rw [if_neg here]
      refine absent ?_
      rintro other member rfl
      have first := stands.least other member le_rfl scorable
      have past := stands.from_start
      omega

end Standing

/-! ### Verifying a node -/

section Verify

variable {log : R → R} {ctx : ScanContext R} {driver nodeId : Nat}

def otherTerms (driver : Nat) : Nat → List SearchTerm → List SearchTerm
  | _, [] => []
  | termNo, term :: rest =>
    if termNo = driver then otherTerms driver (termNo + 1) rest
    else term :: otherTerms driver (termNo + 1) rest

theorem otherTerms_past {termNo : Nat} (past : driver < termNo) (terms : List SearchTerm) :
    otherTerms driver termNo terms = terms := by
  induction terms generalizing termNo with
  | nil => rfl
  | cons term rest ih => rw [otherTerms, if_neg (by omega), ih (by omega)]

theorem otherTerms_perm {terms : List SearchTerm} {termNo : Nat} {term : SearchTerm}
    (le : termNo ≤ driver) (found : terms[driver - termNo]? = some term) :
    (term :: otherTerms driver termNo terms).Perm terms := by
  induction terms generalizing termNo with
  | nil => cases found
  | cons head rest ih =>
    rw [otherTerms]
    by_cases here : termNo = driver
    · subst here
      rw [Nat.sub_self, List.getElem?_cons_zero, Option.some.injEq] at found
      rw [if_pos rfl, otherTerms_past (Nat.lt_succ_self _), found]
    · have step : driver - termNo = driver - (termNo + 1) + 1 := by omega
      rw [step, List.getElem?_cons_succ] at found
      rw [if_neg here]
      exact (List.Perm.swap ..).trans ((ih (by omega) found).cons head)

def Behind (log : R → R) (corpus : ScoringMeta R) (docs : DocState) (nodeId : Nat)
    (term : SearchTerm) (iterator : PostingIterator R) : Prop :=
  ∃ start ≤ nodeId, Standing log corpus docs start term iterator

/-- **Verifying a live node** finds whether all other terms are at it, and the score with theirs. -/
theorem verifyOthers_spec (scorable : ctx.docs.scorable nodeId = true) {terms : List SearchTerm}
    {iterators : List (PostingIterator R)}
    (behind : List.Forall₂ (Behind log ctx.corpus ctx.docs nodeId) terms iterators) (termNo : Nat)
    (score : R) :
    List.Forall₂ (Behind log ctx.corpus ctx.docs nodeId) terms
        (verifyOthers ctx driver nodeId termNo score iterators).2 ∧
      (verifyOthers ctx driver nodeId termNo score iterators).1 =
        if (otherTerms driver termNo terms).all (termAt nodeId) then
          some (score + ((otherTerms driver termNo terms).map (termScore log ctx nodeId)).sum)
        else none := by
  induction behind generalizing termNo score with
  | nil => exact ⟨List.Forall₂.nil, by simp [verifyOthers, otherTerms]⟩
  | @cons term iterator terms iterators here rest ih =>
    rw [verifyOthers, otherTerms]
    by_cases own : termNo = driver
    · rw [if_pos own, if_pos own]
      obtain ⟨behind, verified⟩ := ih (termNo + 1) score
      exact ⟨List.Forall₂.cons here behind, verified⟩
    · rw [if_neg own, if_neg own]
      obtain ⟨start, le, standing⟩ := here
      obtain ⟨moved, found⟩ := standing.seekExact le scorable
      generalize iteratorSeekExact ctx.docs nodeId iterator = sought at moved found
      obtain ⟨iterator, posting⟩ := sought
      cases posting with
      | none =>
        have missing : termAt nodeId term = false := found
        refine ⟨List.Forall₂.cons ⟨nodeId, le_rfl, moved⟩ rest, ?_⟩
        rw [List.all_cons, missing, Bool.false_and]
        rfl
      | some posting =>
        obtain ⟨at', value⟩ := found
        obtain ⟨behind, verified⟩ := ih (termNo + 1) (score + termScore log ctx nodeId term)
        simp only
        rw [value]
        refine ⟨List.Forall₂.cons ⟨nodeId, le_rfl, moved⟩ behind, ?_⟩
        rw [verified, List.all_cons, at', Bool.true_and, List.map_cons, List.sum_cons, add_assoc]

end Verify

/-! ### Rounds -/

section Rounds

variable (log : R → R) (ctx : ScanContext R) (terms : List SearchTerm)

/-- The scorable nodes at which every term has a posting, in node order. -/
def conjunction : List Nat :=
  (List.range ctx.docs.nodeCount).filter fun nodeId =>
    ctx.docs.scorable nodeId && terms.all (termAt nodeId)

def conjunctionBelow (start : Nat) : List Nat :=
  (conjunction ctx terms).filter fun nodeId => decide (nodeId < start)

/-- The driver stands at its place from a node on, the others are not past that node. -/
structure AndFrontier (driver start : Nat) (iterators : List (PostingIterator R)) : Prop where
  behind : List.Forall₂ (Behind log ctx.corpus ctx.docs start) terms iterators
  driving : ∃ term iterator, terms[driver]? = some term ∧ iterators[driver]? = some iterator ∧
    Standing log ctx.corpus ctx.docs start term iterator

end Rounds

section Round

variable {log : R → R} {ctx : ScanContext R} {terms : List SearchTerm} {driver start : Nat}
  {state : AndState R}

theorem mem_conjunction {nodeId : Nat} : nodeId ∈ conjunction ctx terms ↔
    ctx.docs.scorable nodeId = true ∧ ∀ term ∈ terms, termAt nodeId term = true := by
  simp only [conjunction, List.mem_filter, List.mem_range, Bool.and_eq_true, List.all_eq_true]
  exact ⟨And.right, fun both => ⟨DocState.scorable_lt both.1, both⟩⟩

theorem mem_conjunctionBelow {nodeId : Nat} : nodeId ∈ conjunctionBelow ctx terms start ↔
    nodeId ∈ conjunction ctx terms ∧ nodeId < start := by
  simp [conjunctionBelow]

theorem conjunction_sorted (ctx : ScanContext R) (terms : List SearchTerm) :
    (conjunction ctx terms).Pairwise (· < ·) :=
  List.Pairwise.filter _ List.pairwise_lt_range

theorem fullMask_conjunction {nodeId : Nat} (every : ∀ term ∈ terms, termAt nodeId term = true) :
    fullMask terms nodeId = requiredMask (terms.map SearchTerm.term) := by
  refine Nat.eq_of_testBit_eq fun index => ?_
  rw [fullMask, List.filter_eq_self.mpr every, testBit_orAll, testBit_requiredMask, List.any_map,
    List.any_map]
  rfl

theorem Behind.mono {corpus : ScoringMeta R} {docs : DocState} {nodeId target : Nat}
    {term : SearchTerm} {iterator : PostingIterator R}
    (behind : Behind log corpus docs nodeId term iterator) (le : nodeId ≤ target) :
    Behind log corpus docs target term iterator := by
  obtain ⟨origin, before, standing⟩ := behind
  exact ⟨origin, before.trans le, standing⟩

theorem forall₂_set {α β : Type*} {related : α → β → Prop} {items : List α} {others : List β}
    (pairs : List.Forall₂ related items others) {index : Nat} {item : α} {other : β}
    (found : items[index]? = some item) (here : related item other) :
    List.Forall₂ related items (others.set index other) := by
  induction pairs generalizing index with
  | nil => cases found
  | cons head rest ih =>
    cases index with
    | zero =>
      obtain rfl := Option.some.inj found
      exact List.Forall₂.cons here rest
    | succ index => exact List.Forall₂.cons head (ih found)

theorem fullScore_driven {term : SearchTerm} (found : terms[driver]? = some term) (nodeId : Nat) :
    termScore log ctx nodeId term +
        ((otherTerms driver 0 terms).map (termScore log ctx nodeId)).sum =
      fullScore log ctx terms nodeId := by
  have perm := otherTerms_perm (Nat.zero_le driver) found
  rw [fullScore, ← (perm.map (termScore log ctx nodeId)).sum_eq, List.map_cons, List.sum_cons]

/-- **One round** offers the driver's node if every term is at it, and moves the driver past it. -/
theorem andStep_some {iterators : List (PostingIterator R)} {acc : Accumulator R}
    {next : AndState R} (frontier : AndFrontier log ctx terms driver start iterators)
    (moved : andStep ctx (requiredMask (terms.map SearchTerm.term)) driver ⟨iterators, acc⟩ =
      some next) :
    ∃ nodeId, start ≤ nodeId ∧ ctx.docs.scorable nodeId = true ∧
      (∀ other ∈ conjunction ctx terms, start ≤ other → nodeId ≤ other) ∧
      AndFrontier log ctx terms driver (nodeId + 1) next.iterators ∧
      next.acc = if nodeId ∈ conjunction ctx terms then offer log ctx terms acc nodeId else acc := by
  obtain ⟨term, iterator, listed, atDriver, standing⟩ := frontier.driving
  rw [andStep] at moved
  simp only [atDriver, Option.bind_some] at moved
  obtain ⟨posting, current, round⟩ := Option.bind_eq_some_iff.mp moved
  have stands := standing.stands current
  have bound := DocState.scorable_lt stands.scorable
  have limit := ctx.docs.nodeCount_lt
  have inTerms := List.mem_of_getElem? listed
  rw [stands.nodeId] at round
  rw [if_neg (by omega)] at round
  set nodeId := posting.nodeId with nodeId_eq
  have own : postingScoreDecoded ctx.corpus iterator.idf (avgDocLen ctx.corpus) posting
      (ctx.docs.docLen nodeId) = termScore log ctx nodeId term := by
    rw [nodeId_eq, termScore_of_mem stands.inside, postingContribution, ← stands.idf]
  rw [own] at round
  have advanced : Standing log ctx.corpus ctx.docs (nodeId + 1) term
      (iteratorAdvancePast ctx.docs nodeId iterator) := by
    rw [iteratorAdvancePast, if_neg (by omega)]
    exact standing.seek (stands.from_start.trans (Nat.le_succ _))
  obtain ⟨behind, verified⟩ := @verifyOthers_spec _ _ _ _ log ctx driver nodeId stands.scorable terms
    iterators (frontier.behind.imp fun _ _ here => here.mono stands.from_start) 0
    (termScore log ctx nodeId term)
  generalize verifyOthers ctx driver nodeId 0 (termScore log ctx nodeId term) iterators = walked
    at round behind verified
  obtain ⟨outcome, others⟩ := walked
  obtain rfl := Option.some.inj round
  have here : termAt nodeId term = true := termAt_iff.mpr ⟨posting, stands.inside, rfl⟩
  have every : (otherTerms driver 0 terms).all (termAt nodeId) = true ↔
      nodeId ∈ conjunction ctx terms := by
    have perm := otherTerms_perm (Nat.zero_le driver) listed
    rw [mem_conjunction, List.all_eq_true]
    constructor
    · intro rest
      refine ⟨stands.scorable, fun other member => ?_⟩
      rcases List.mem_cons.mp (perm.mem_iff.mpr member) with rfl | later
      · exact here
      · exact rest other later
    · exact fun both other member =>
        both.2 other (perm.mem_iff.mp (List.mem_cons_of_mem _ member))
  refine ⟨nodeId, stands.from_start, stands.scorable, fun other member le => ?_, ⟨?_, ?_⟩, ?_⟩
  · obtain ⟨scorable, all⟩ := mem_conjunction.mp member
    obtain ⟨later, inside, rfl⟩ := termAt_iff.mp (all term inTerms)
    exact stands.least later inside le scorable
  · have wide : List.Forall₂ (Behind log ctx.corpus ctx.docs (nodeId + 1)) terms others :=
      behind.imp fun _ _ still => still.mono (Nat.le_succ nodeId)
    exact forall₂_set wide listed ⟨nodeId + 1, le_rfl, advanced⟩
  · have inside : driver < others.length := by
      rw [← behind.length_eq]
      exact (List.getElem?_eq_some_iff.mp listed).1
    exact ⟨term, _, listed, List.getElem?_set_self inside, advanced⟩
  · by_cases member : nodeId ∈ conjunction ctx terms
    · rw [if_pos (every.mpr member), fullScore_driven listed] at verified
      have found : outcome = some (fullScore log ctx terms nodeId) := verified
      rw [if_pos member, offer, fullMask_conjunction (mem_conjunction.mp member).2, found]
    · rw [if_neg (every.not.mpr member)] at verified
      have missed : outcome = none := verified
      rw [if_neg member, missed]

/-- **Without a round** no node of the conjunction is left. -/
theorem andStep_none {iterators : List (PostingIterator R)} {acc : Accumulator R} {mask : Nat}
    (frontier : AndFrontier log ctx terms driver start iterators)
    (ended : andStep ctx mask driver ⟨iterators, acc⟩ = none) :
    ∀ other ∈ conjunction ctx terms, other < start := by
  obtain ⟨term, iterator, listed, atDriver, standing⟩ := frontier.driving
  intro other member
  by_contra past
  obtain ⟨scorable, all⟩ := mem_conjunction.mp member
  obtain ⟨later, inside, rfl⟩ := termAt_iff.mp (all term (List.mem_of_getElem? listed))
  rw [andStep] at ended
  simp only [atDriver, Option.bind_some] at ended
  cases current : iteratorPosting iterator with
  | none =>
    rw [standing.ended current inside (not_lt.mp past)] at scorable
    cases scorable
  | some posting =>
    have stands := standing.stands current
    have bound := DocState.scorable_lt stands.scorable
    have limit := ctx.docs.nodeCount_lt
    rw [current, Option.bind_some, stands.nodeId, if_neg (by omega)] at ended
    cases ended

end Round

/-! ### Runs -/

section Run

variable {log : R → R} {ctx : ScanContext R} {terms : List SearchTerm} {driver start : Nat}
  {acc : Accumulator R}

theorem conjunctionBelow_next {nodeId : Nat} (le : start ≤ nodeId)
    (least : ∀ other ∈ conjunction ctx terms, start ≤ other → nodeId ≤ other) :
    conjunctionBelow ctx terms (nodeId + 1) = conjunctionBelow ctx terms start ++
      if nodeId ∈ conjunction ctx terms then [nodeId] else [] := by
  have sorted := (conjunction_sorted ctx terms).filter fun other => decide (other < nodeId + 1)
  have joined : (conjunctionBelow ctx terms start ++
      if nodeId ∈ conjunction ctx terms then [nodeId] else []).Pairwise (· < ·) := by
    refine List.pairwise_append.mpr ⟨(conjunction_sorted ctx terms).filter _, ?_, ?_⟩
    · split_ifs
      · exact List.pairwise_singleton _ _
      · exact List.Pairwise.nil
    · intro one below other added
      split_ifs at added
      · rw [List.mem_singleton.mp added]
        exact (mem_conjunctionBelow.mp below).2.trans_le le
      · cases added
  refine List.Perm.eq_of_pairwise' (r := (· < ·)) sorted joined ?_
  refine (List.perm_ext_iff_of_nodup (sorted.imp ne_of_lt) (joined.imp ne_of_lt)).mpr fun other => ?_
  rw [← conjunctionBelow, mem_conjunctionBelow, List.mem_append, mem_conjunctionBelow]
  constructor
  · rintro ⟨member, below⟩
    rcases Nat.lt_or_ge other start with early | late
    · exact Or.inl ⟨member, early⟩
    · obtain rfl : other = nodeId := le_antisymm (Nat.lt_succ_iff.mp below) (least other member late)
      rw [if_pos member]
      exact Or.inr (List.mem_singleton_self other)
  · rintro (⟨member, early⟩ | added)
    · exact ⟨member, early.trans_le (le.trans (Nat.le_succ nodeId))⟩
    · split_ifs at added with member
      · rw [List.mem_singleton.mp added]
        exact ⟨member, Nat.lt_succ_self nodeId⟩
      · cases added

/-- **The rounds** leave a skim of the conjunction. -/
theorem andLoop_keeps (positive : 0 < ctx.k)
    (idf_nonneg : ∀ term ∈ terms, 0 ≤ term.idf log ctx.corpus) {fuel : Nat}
    {iterators : List (PostingIterator R)} (enough : ctx.docs.nodeCount < fuel + start)
    (frontier : AndFrontier log ctx terms driver start iterators)
    (keeps : Keeps log ctx terms 0 (conjunctionBelow ctx terms start) acc) :
    Keeps log ctx terms 0 (conjunction ctx terms)
      (andLoop ctx (requiredMask (terms.map SearchTerm.term)) driver fuel ⟨iterators, acc⟩).acc := by
  have whole {start : Nat} (every : ∀ other ∈ conjunction ctx terms, other < start) :
      conjunctionBelow ctx terms start = conjunction ctx terms :=
    List.filter_eq_self.mpr fun other member => by simpa using every other member
  induction fuel generalizing start iterators acc with
  | zero =>
    have every : ∀ other ∈ conjunction ctx terms, other < start := by
      intro other member
      have bound := DocState.scorable_lt (mem_conjunction.mp member).1
      omega
    exact whole every ▸ keeps
  | succ fuel ih =>
    rw [andLoop]
    cases moved : andStep ctx (requiredMask (terms.map SearchTerm.term)) driver
        ⟨iterators, acc⟩ with
    | none => exact whole (andStep_none frontier moved) ▸ keeps
    | some next =>
      obtain ⟨nodeId, le, scorable, least, frontier', offered⟩ := andStep_some frontier moved
      refine @ih (nodeId + 1) next.acc next.iterators (by omega) frontier' ?_
      rw [conjunctionBelow_next le least, offered]
      split_ifs with member
      · refine keeps.offer positive idf_nonneg (DocState.scorable_lt scorable) ?_
        exact fun other below => (mem_conjunctionBelow.mp below).2.trans_le le
      · rw [List.append_nil]
        exact keeps

theorem openIterators_standing {iterators : List (PostingIterator R)}
    (opened : openIterators log ctx.corpus ctx.docs terms = some iterators) :
    List.Forall₂ (Standing log ctx.corpus ctx.docs 0) terms iterators := by
  induction terms generalizing iterators with
  | nil =>
    obtain rfl := Option.some.inj opened
    exact List.Forall₂.nil
  | cons term rest ih =>
    obtain ⟨iterator, here, later⟩ := Option.bind_eq_some_iff.mp opened
    obtain ⟨iterators, others, rfl⟩ := Option.map_eq_some_iff.mp later
    exact List.Forall₂.cons (openIterator_standing here) (ih others)

theorem conjunction_unopened (unopened : openIterators log ctx.corpus ctx.docs terms = none) :
    conjunction ctx terms = [] := by
  have missing : ∃ term ∈ terms, openIterator log ctx.corpus ctx.docs term = none := by
    induction terms with
    | nil => cases unopened
    | cons term rest ih =>
      cases here : openIterator log ctx.corpus ctx.docs term with
      | none => exact ⟨term, List.mem_cons_self, here⟩
      | some iterator =>
        rw [openIterators, here, Option.bind_some, Option.map_eq_none_iff] at unopened
        obtain ⟨other, member, gone⟩ := ih unopened
        exact ⟨other, List.mem_cons_of_mem _ member, gone⟩
  obtain ⟨term, inside, gone⟩ := missing
  rw [openIterator_eq] at gone
  refine List.eq_nil_iff_forall_not_mem.mpr fun nodeId member => ?_
  obtain ⟨scorable, all⟩ := mem_conjunction.mp member
  obtain ⟨posting, there, rfl⟩ := termAt_iff.mp (all term inside)
  rw [iteratorAt_none gone there (Nat.zero_le _)] at scorable
  cases scorable

theorem scoreBaseAndRarestDriver_takes (log : R → R) (ctx : ScanContext R) (eval : QueryEval)
    (terms : List SearchTerm) (acc : Accumulator R) :
    (scoreBaseAndRarestDriver log ctx eval terms acc).1 = true ↔
      eval.shape = .pureAnd ∧ 1 < terms.length := by
  rw [scoreBaseAndRarestDriver]
  by_cases other : eval.shape ≠ .pureAnd ∨ terms.length ≤ 1
  · rw [if_pos other]
    refine iff_of_false Bool.false_ne_true fun both => ?_
    rcases other with shape | few
    · exact shape both.1
    · exact absurd both.2 (not_lt.mpr few)
  · rw [if_neg other]
    obtain ⟨shape, several⟩ := not_or.mp other
    refine iff_of_true ?_ ⟨not_not.mp shape, not_le.mp several⟩
    split
    · rfl
    · split
      · rfl
      · split <;> rfl

/-- **What the scorer leaves**: a skim of the conjunction, each with its full score and mask. -/
theorem scoreBaseAndRarestDriver_keeps (positive : 0 < ctx.k)
    (idf_nonneg : ∀ term ∈ terms, 0 ≤ term.idf log ctx.corpus) (several : 1 < terms.length)
    (counted : ∃ term ∈ terms, term.df < uint32Max) {eval : QueryEval}
    (shape : eval.shape = .pureAnd)
    (mask : eval.requiredMask = requiredMask (terms.map SearchTerm.term))
    (keeps : Keeps log ctx terms 0 [] acc) :
    Keeps log ctx terms 0 (conjunction ctx terms)
      (scoreBaseAndRarestDriver log ctx eval terms acc).2 := by
  have taken : ¬(eval.shape ≠ .pureAnd ∨ terms.length ≤ 1) :=
    not_or.mpr ⟨not_not.mpr shape, not_le.mpr several⟩
  rw [scoreBaseAndRarestDriver, if_neg taken]
  by_cases absent : (terms.any fun term => term.lexicon.isNone) = true
  · rw [if_pos absent]
    obtain ⟨term, inside, none'⟩ := List.any_eq_true.mp absent
    have empty : conjunction ctx terms = [] := by
      refine List.eq_nil_iff_forall_not_mem.mpr fun nodeId member => ?_
      obtain ⟨posting, there, -⟩ := termAt_iff.mp ((mem_conjunction.mp member).2 term inside)
      rw [SearchTerm.postings, Option.isNone_iff_eq_none.mp none'] at there
      cases there
    exact empty ▸ keeps
  · rw [if_neg absent]
    obtain ⟨driver, found, place⟩ :=
      @chooseDriver_spec terms 0 uint32Max none (Or.inr counted)
    rw [found]
    cases opened : openIterators log ctx.corpus ctx.docs terms with
    | none => exact conjunction_unopened opened ▸ keeps
    | some iterators =>
      simp only [mask]
      have standing := openIterators_standing opened
      have inside : driver < terms.length := by
        rcases place with absurd' | bounds
        · cases absurd'
        · omega
      have listed := List.getElem?_eq_getElem inside
      have inIterators : driver < iterators.length := standing.length_eq ▸ inside
      have enough : ctx.docs.nodeCount < ctx.docs.nodeCount + 1 + 0 := Nat.lt_succ_self _
      refine andLoop_keeps positive idf_nonneg enough ⟨?_, ?_⟩ ?_
      · exact standing.imp fun _ _ here => ⟨0, le_rfl, here⟩
      · refine ⟨_, _, listed, List.getElem?_eq_getElem inIterators, ?_⟩
        exact standing.get inside inIterators
      · have none' : conjunctionBelow ctx terms 0 = [] :=
          List.filter_eq_nil_iff.mpr fun nodeId _ => by simp
        exact none' ▸ keeps

end Run

end TurboHybrid.Scan
