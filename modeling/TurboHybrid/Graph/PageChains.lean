/-
**The walk over all page chains.**

The validator starts a chain at every block in order. It follows the links and marks a page as it
reads it; a link to a page marked in the same chain is reported as a cycle. Then the chain's pages
are marked as done, so that later chains end where they meet them.

* `walkChain_spec`: the two loops follow a walk along the links and mark it;
* `ChainStep`: what one chain reads, reports and marks;
* `validateAllPageChains_spec`: for every relation the walk ends, every chain is a `ChainStep`, and
  it reports a cycle exactly when following the links from its start, through pages of no earlier
  chain, comes back to a page.

There is no report for a link into an earlier chain: `joined_silent`.
-/
import TurboHybrid.Graph.Validator
import TurboHybrid.Library.LinkWalk

namespace TurboHybrid.Graph

open TurboHybrid.Library

/-! ### The two loops -/

structure EnvelopePage where
  initialized : Bool
  pageId : Nat
  pageKind : Nat
  nextblkno : Option Nat
  deriving DecidableEq

/-- The marks: not read, read by this chain, done. -/
inductive Color
  | unread
  | current
  | done
  deriving DecidableEq, Repr

/-- The marks and the reports; `reads` and `rereads` list the pages the two loops read. -/
structure ChainState where
  colors : Nat → Color
  checkedPages : Nat
  errors : List Issue
  reads : List Nat
  rereads : List Nat

def pageIdGraph : Nat := 0x5459

/-- The issues `PgturbohybridValidatePageEnvelope` adds. -/
def envelopeIssues (nblocks blkno : Nat) (page : EnvelopePage) : List Issue :=
  let issue (code : String) : Issue := ⟨code, some blkno, none, none⟩
  if !page.initialized then [issue "invalid_page_envelope"]
  else
    let kind := page.pageKind &&& 0x00ff
    (if page.pageId ≠ pageIdGraph then [issue "invalid_page_id"] else []) ++
      (if kind < 1 ∨ 21 < kind then [issue "invalid_page_kind"] else []) ++
      (if page.nextblkno = some blkno then [issue "chain_self_loop"] else []) ++
      (match page.nextblkno with
        | some next => if next = 0 ∨ nblocks ≤ next then [issue "chain_pointer_out_of_range"] else []
        | none => [])

/-- The link of a page, none where its envelope is not valid. -/
def EnvelopePage.link (page : EnvelopePage) : Option Nat :=
  if page.initialized then page.nextblkno else none

/-- `PgturbohybridValidatePageEnvelope`. -/
def validatePageEnvelope (nblocks : Nat) (state : ChainState) (blkno : Nat) (page : EnvelopePage) :
    ChainState × Option Nat :=
  ({ state with
      checkedPages := state.checkedPages + 1
      errors := state.errors ++ envelopeIssues nblocks blkno page },
    page.link)

def ChainState.addIssue (state : ChainState) (code : String) (blkno : Nat) : ChainState :=
  { state with errors := state.errors ++ [⟨code, some blkno, none, none⟩] }

/-- The first loop's read of a page: marked, then checked. -/
def ChainState.read (state : ChainState) (nblocks blkno : Nat) (page : EnvelopePage) :
    ChainState × Option Nat :=
  validatePageEnvelope nblocks
    { state with
      colors := Function.update state.colors blkno .current
      reads := state.reads ++ [blkno] } blkno page

def ChainState.settle (state : ChainState) (blkno : Nat) : ChainState :=
  { state with
    colors := Function.update state.colors blkno .done
    rereads := state.rereads ++ [blkno] }

variable (pages : Nat → EnvelopePage) (nblocks : Nat)

/-- The first loop of a chain; none when the fuel runs out. -/
def walkChain : Nat → ChainState → Option Nat → Option ChainState
  | _, state, none => some state
  | fuel, state, some blkno =>
    if 0 < blkno ∧ blkno < nblocks ∧ state.colors blkno = .unread then
      match fuel with
      | 0 => none
      | fuel + 1 =>
        let (checked, next) := state.read nblocks blkno (pages blkno)
        match next with
        | some next =>
          if next < nblocks ∧ checked.colors next = .current then
            some (checked.addIssue "chain_cycle" next)
          else walkChain fuel checked (some next)
        | none => some checked
    else some state

def settleChain : Nat → ChainState → Option Nat → Option ChainState
  | _, state, none => some state
  | fuel, state, some blkno =>
    if 0 < blkno ∧ blkno < nblocks ∧ state.colors blkno = .current then
      match fuel with
      | 0 => none
      | fuel + 1 => settleChain fuel (state.settle blkno) (pages blkno).link
    else some state

def validateChain (state : ChainState) (origin : Nat) : Option ChainState := do
  let walked ← walkChain pages nblocks nblocks state (some origin)
  settleChain pages nblocks nblocks walked (some origin)

def ChainState.start : ChainState :=
  { colors := fun _ => .unread, checkedPages := 0, errors := [], reads := [], rereads := [] }

/-- The chains from the blocks `1` to `count`. -/
def chainsUpTo (count : Nat) : Option ChainState :=
  (List.range' 1 count).foldlM (validateChain pages nblocks) .start

/-- **`PgturbohybridValidateAllPageChains`**. -/
def validateAllPageChains : Option ChainState :=
  chainsUpTo pages nblocks (nblocks - 1)

/-! ### One chain -/

def linkOf (blkno : Nat) : Option Nat :=
  (pages blkno).link

/-- A block of the relation that no earlier chain has read. -/
def Unread (colors : Nat → Color) (blkno : Nat) : Prop :=
  0 < blkno ∧ blkno < nblocks ∧ colors blkno = .unread

/-- The marks with a color for the blocks of a chain. -/
def markAll (colors : Nat → Color) (chain : List Nat) (color : Color) : Nat → Color :=
  fun blkno => if blkno ∈ chain then color else colors blkno

/-- The report where a chain ends at a link to one of its own pages. -/
def cycleIssues (origin : Nat) (chain : List Nat) : List Issue :=
  (((follow (linkOf pages) origin chain.length).toList).filter (· ∈ chain)).map
    fun blkno => ⟨"chain_cycle", some blkno, none, none⟩

/-- **What one chain does**: the pages it reads are a walk along the links through pages no earlier
chain has read; their envelope issues and a cycle are reported; the pages are done. -/
structure ChainStep (before after : ChainState) (origin : Nat) (chain : List Nat) : Prop where
  walk : Walk (linkOf pages) (Unread nblocks before.colors) origin chain
  ended : ∀ blkno, follow (linkOf pages) origin chain.length = some blkno →
    Unread nblocks before.colors blkno → blkno ∈ chain
  reads : after.reads = before.reads ++ chain
  rereads : after.rereads = before.rereads ++ chain
  checkedPages : after.checkedPages = before.checkedPages + chain.length
  errors : after.errors = before.errors ++
    (chain.flatMap fun blkno => envelopeIssues nblocks blkno (pages blkno)) ++
      cycleIssues pages origin chain
  colors : after.colors = markAll before.colors chain .done

variable {pages nblocks} {base : Nat → Color} {origin : Nat}

theorem update_markAll (chain : List Nat) (color : Color) (blkno : Nat) :
    Function.update (markAll base chain color) blkno color =
      markAll base (chain ++ [blkno]) color := by
  funext other
  rw [Function.update_apply, markAll, markAll]
  by_cases same : other = blkno
  · rw [if_pos same, if_pos (List.mem_append_right _ (List.mem_singleton.mpr same))]
  · rw [if_neg same]
    by_cases member : other ∈ chain
    · rw [if_pos member, if_pos (List.mem_append_left _ member)]
    · rw [if_neg member, if_neg fun inside => (List.mem_append.mp inside).elim member
        fun last => same (List.mem_singleton.mp last)]

theorem walk_length {chain : List Nat} (walk : Walk (linkOf pages) (Unread nblocks base) origin chain) :
    chain.length ≤ nblocks - 1 := by
  have inside : chain ⊆ List.range' 1 (nblocks - 1) := fun blkno member => by
    have unread := walk.free blkno member
    rw [List.mem_range'_1]
    have := unread.1
    have := unread.2.1
    omega
  have bound := (List.subperm_of_subset walk.nodup inside).length_le
  rw [List.length_range'] at bound
  exact bound

variable (pages nblocks base origin) in
/-- The first loop read `rest` after `chain`, and the walk has ended. -/
structure WalkedOn (chain rest : List Nat) (state final : ChainState) : Prop where
  walk : Walk (linkOf pages) (Unread nblocks base) origin (chain ++ rest)
  ended : ∀ blkno, follow (linkOf pages) origin (chain ++ rest).length = some blkno →
    Unread nblocks base blkno → blkno ∈ chain ++ rest
  reads : final.reads = state.reads ++ rest
  rereads : final.rereads = state.rereads
  checkedPages : final.checkedPages = state.checkedPages + rest.length
  errors : final.errors = state.errors ++
    (rest.flatMap fun blkno => envelopeIssues nblocks blkno (pages blkno)) ++
      cycleIssues pages origin (chain ++ rest)
  colors : final.colors = markAll base (chain ++ rest) .current

theorem walkedOn_nil {chain : List Nat} {state : ChainState}
    (walk : Walk (linkOf pages) (Unread nblocks base) origin chain)
    (away : ∀ blkno, follow (linkOf pages) origin chain.length = some blkno →
      blkno ∉ chain ∧ ¬Unread nblocks base blkno)
    (marked : state.colors = markAll base chain .current) :
    WalkedOn pages nblocks base origin chain [] state state := by
  have silent : cycleIssues pages origin chain = [] := by
    rw [cycleIssues]
    cases reached : follow (linkOf pages) origin chain.length with
    | none => rfl
    | some blkno => simp [(away blkno reached).1]
  refine ⟨?_, ?_, (List.append_nil _).symm, rfl, rfl, ?_, ?_⟩
  · rw [List.append_nil]
    exact walk
  · rw [List.append_nil]
    exact fun blkno reached unread => absurd unread (away blkno reached).2
  · rw [List.append_nil, silent, List.flatMap_nil, List.append_nil, List.append_nil]
  · rw [List.append_nil]
    exact marked

theorem walkChain_stop {fuel : Nat} {chain : List Nat} {state : ChainState} {current : Option Nat}
    (walk : Walk (linkOf pages) (Unread nblocks base) origin chain)
    (reached : follow (linkOf pages) origin chain.length = current)
    (marked : state.colors = markAll base chain .current)
    (away : ∀ blkno, current = some blkno → blkno ∉ chain ∧ ¬Unread nblocks base blkno) :
    ∃ rest final, walkChain pages nblocks fuel state current = some final ∧
      WalkedOn pages nblocks base origin chain rest state final := by
  have walked := walkedOn_nil walk (fun blkno found => away blkno (reached.symm.trans found)) marked
  refine ⟨[], state, ?_, walked⟩
  cases current with
  | none => cases fuel <;> rfl
  | some blkno =>
    obtain ⟨new, read⟩ := away blkno rfl
    have color : state.colors blkno = base blkno := by rw [marked, markAll, if_neg new]
    have stops : ¬(0 < blkno ∧ blkno < nblocks ∧ state.colors blkno = .unread) :=
      fun unread => read ⟨unread.1, unread.2.1, color ▸ unread.2.2⟩
    cases fuel <;> exact if_neg stops

theorem cycleIssues_of_mem {chain : List Nat} {blkno : Nat}
    (reached : follow (linkOf pages) origin chain.length = some blkno) (member : blkno ∈ chain) :
    cycleIssues pages origin chain = [⟨"chain_cycle", some blkno, none, none⟩] := by
  rw [cycleIssues, reached]
  simp [member]

theorem cycleIssues_of_none {chain : List Nat}
    (reached : follow (linkOf pages) origin chain.length = none) :
    cycleIssues pages origin chain = [] := by
  rw [cycleIssues, reached]
  rfl

/-- **The first loop** reads the rest of the walk. -/
theorem walkChain_spec (settled : ∀ blkno, base blkno ≠ .current) (fuel : Nat) {chain : List Nat}
    {state : ChainState} {current : Option Nat}
    (walk : Walk (linkOf pages) (Unread nblocks base) origin chain)
    (reached : follow (linkOf pages) origin chain.length = current)
    (fresh : ∀ blkno, current = some blkno → blkno ∉ chain)
    (marked : state.colors = markAll base chain .current) (enough : nblocks ≤ fuel + chain.length) :
    ∃ rest final, walkChain pages nblocks fuel state current = some final ∧
      WalkedOn pages nblocks base origin chain rest state final := by
  induction fuel generalizing chain state current with
  | zero =>
    refine walkChain_stop walk reached marked fun blkno same => ⟨fresh blkno same, fun unread => ?_⟩
    -- one more page would make the walk longer than the relation
    have longer := walk_length (walk.push (reached.trans same) unread (fresh blkno same))
    rw [List.length_append, List.length_singleton] at longer
    omega
  | succ fuel ih =>
    by_cases more : ∃ blkno, current = some blkno ∧ Unread nblocks base blkno
    · obtain ⟨blkno, rfl, unread⟩ := more
      have new := fresh blkno rfl
      have color : state.colors blkno = .unread := by
        rw [marked, markAll, if_neg new]
        exact unread.2.2
      have longer := walk.push reached unread new
      have length : (chain ++ [blkno]).length = chain.length + 1 := List.length_append
      have next : follow (linkOf pages) origin (chain ++ [blkno]).length = linkOf pages blkno := by
        rw [length, follow, reached]
        rfl
      have colors : (state.read nblocks blkno (pages blkno)).1.colors =
          markAll base (chain ++ [blkno]) .current := by
        rw [← update_markAll, ← marked]
        rfl
      have current_iff (other : Nat) :
          (state.read nblocks blkno (pages blkno)).1.colors other = .current ↔ other ∈ chain ++ [blkno] := by
        rw [colors, markAll]
        split
        · exact iff_of_true rfl (by assumption)
        · exact iff_of_false (settled other) (by assumption)
      rw [walkChain, if_pos ⟨unread.1, unread.2.1, color⟩]
      cases link : (pages blkno).link with
      | none =>
        have ended : follow (linkOf pages) origin (chain ++ [blkno]).length = none :=
          next.trans link
        have stopped : (state.read nblocks blkno (pages blkno)).2 = none := link
        refine ⟨[blkno], (state.read nblocks blkno (pages blkno)).1, ?_, longer,
          fun other found => ?_, rfl, rfl, rfl, ?_, colors⟩
        · simp only [stopped]
        · rw [ended] at found
          cases found
        · rw [cycleIssues_of_none ended, List.append_nil, List.flatMap_singleton]
          rfl
      | some other =>
        have onward : follow (linkOf pages) origin (chain ++ [blkno]).length = some other :=
          next.trans link
        have going : (state.read nblocks blkno (pages blkno)).2 = some other := link
        by_cases cycle : other < nblocks ∧ (state.read nblocks blkno (pages blkno)).1.colors other = .current
        · have member := (current_iff other).mp cycle.2
          refine ⟨[blkno], (state.read nblocks blkno (pages blkno)).1.addIssue "chain_cycle" other,
            ?_, longer, fun found same _ => ?_, rfl, rfl, rfl, ?_, colors⟩
          · simp only [going, if_pos cycle]
          · rw [onward] at same
            rw [← Option.some_injective _ same]
            exact member
          · rw [cycleIssues_of_mem onward member, List.flatMap_singleton]
            rfl
        · have ahead : ∀ place, some other = some place → place ∉ chain ++ [blkno] := by
            intro place same member
            rw [← Option.some_injective _ same] at member
            exact cycle ⟨(longer.free other member).2.1, (current_iff other).mpr member⟩
          obtain ⟨rest, final, run, walked⟩ := ih longer onward ahead colors (by omega)
          refine ⟨blkno :: rest, final, ?_, ?_⟩
          · simp only [going, if_neg cycle]
            exact run
          have split : chain ++ blkno :: rest = chain ++ [blkno] ++ rest := by
            rw [List.append_assoc, List.singleton_append]
          refine ⟨?_, ?_, ?_, walked.rereads, ?_, ?_, ?_⟩
          · rw [split]
            exact walked.walk
          · rw [split]
            exact walked.ended
          · rw [walked.reads]
            show state.reads ++ [blkno] ++ rest = _
            rw [List.append_assoc, List.singleton_append]
          · rw [walked.checkedPages, List.length_cons]
            show state.checkedPages + 1 + rest.length = _
            omega
          · rw [walked.errors, split, List.flatMap_cons]
            show state.errors ++ envelopeIssues nblocks blkno (pages blkno) ++ _ ++ _ = _
            simp only [List.append_assoc]
          · rw [split]
            exact walked.colors
    · refine walkChain_stop walk reached marked fun blkno same => ⟨fresh blkno same, fun unread => ?_⟩
      exact more ⟨blkno, same, unread⟩

theorem markAll_markAll (chain : List Nat) (first second : Color) :
    markAll (markAll base chain first) chain second = markAll base chain second := by
  funext blkno
  rw [markAll, markAll, markAll]
  split <;> rfl

/-- **The second loop** marks the pages of the walk as done. -/
theorem settleChain_spec (settled : ∀ blkno, base blkno ≠ .current) {chain : List Nat}
    (walk : Walk (linkOf pages) (Unread nblocks base) origin chain) (fuel : Nat)
    {before after : List Nat} (split : chain = before ++ after) {state : ChainState}
    (marked : state.colors = markAll (markAll base chain .current) before .done)
    (enough : after.length ≤ fuel) :
    settleChain pages nblocks fuel state (follow (linkOf pages) origin before.length) =
      some { state with
        colors := markAll base chain .done
        rereads := state.rereads ++ after } := by
  induction after generalizing before fuel state with
  | nil =>
    rw [List.append_nil] at split
    rw [← split, markAll_markAll] at marked
    rw [List.append_nil, ← marked]
    cases follow (linkOf pages) origin before.length with
    | none => cases fuel <;> rfl
    | some blkno =>
      have color : state.colors blkno ≠ .current := by
        rw [marked, markAll]
        split_ifs
        · exact fun absurd => by cases absurd
        · exact settled blkno
      have stops : ¬(0 < blkno ∧ blkno < nblocks ∧ state.colors blkno = .current) :=
        fun inside => color inside.2.2
      cases fuel <;> exact if_neg stops
  | cons blkno after ih =>
    obtain ⟨fuel, rfl⟩ : ∃ rest, fuel = rest + 1 := ⟨fuel - 1, by
      rw [List.length_cons] at enough
      omega⟩
    have place : chain[before.length]? = some blkno := by
      rw [split, List.getElem?_append_right le_rfl, Nat.sub_self]
      rfl
    have member : blkno ∈ chain := List.mem_of_getElem? place
    have here := walk.follows _ _ place
    have unread := walk.free blkno member
    have new : blkno ∉ before := by
      have nodup := walk.nodup
      rw [split, List.nodup_append] at nodup
      exact fun earlier => nodup.2.2 blkno earlier blkno List.mem_cons_self rfl
    have color : state.colors blkno = .current := by
      rw [marked, markAll, if_neg new, markAll, if_pos member]
    have next : follow (linkOf pages) origin (before ++ [blkno]).length = (pages blkno).link := by
      rw [List.length_append, List.length_singleton, follow, here]
      rfl
    have colors : (state.settle blkno).colors =
        markAll (markAll base chain .current) (before ++ [blkno]) .done := by
      rw [← update_markAll, ← marked]
      rfl
    have whole : chain = before ++ [blkno] ++ after := by
      rw [split, List.append_assoc, List.singleton_append]
    rw [List.length_cons] at enough
    have further := ih fuel whole colors (by omega)
    rw [next] at further
    rw [here, settleChain, if_pos ⟨unread.1, unread.2.1, color⟩]
    refine further.trans ?_
    show some (ChainState.mk _ _ _ _ (state.rereads ++ [blkno] ++ after)) = _
    rw [List.append_assoc, List.singleton_append]
    rfl

variable (pages nblocks) in
/-- **One chain.** -/
theorem validateChain_step {before : ChainState} (settled : ∀ blkno, before.colors blkno ≠ .current)
    (origin : Nat) : ∃ after chain, validateChain pages nblocks before origin = some after ∧
      ChainStep pages nblocks before after origin chain := by
  have empty (colors : Nat → Color) (color : Color) : markAll colors [] color = colors := by
    funext blkno
    rw [markAll, if_neg List.not_mem_nil]
  have start : Walk (linkOf pages) (Unread nblocks before.colors) origin [] := Walk.nil
  obtain ⟨chain, walked, run, spec⟩ := walkChain_spec settled nblocks start rfl
    (fun _ _ => List.not_mem_nil) (empty _ _).symm (Nat.le_refl _)
  obtain ⟨walk, ended, reads, rereads, checked, errors, colors⟩ := spec
  simp only [List.nil_append] at walk ended errors colors
  have short := walk_length walk
  have done := settleChain_spec settled walk nblocks (List.nil_append chain).symm
    (colors.trans (empty _ _).symm) (by omega)
  refine ⟨⟨markAll before.colors chain .done, walked.checkedPages, walked.errors, walked.reads,
    walked.rereads ++ chain⟩, chain, ?_, walk, ended, reads, by rw [rereads], checked, errors, rfl⟩
  rw [validateChain]
  show (walkChain pages nblocks nblocks before (some origin)).bind _ = _
  rw [show walkChain pages nblocks nblocks before (some origin) = some walked from run]
  exact done

/-! ### All chains -/

variable (pages nblocks) in
/-- **Between two chains** the pages that were read are done, each read once. -/
structure ChainsDone (count : Nat) (state : ChainState) : Prop where
  settled : ∀ blkno, state.colors blkno ≠ .current
  done : ∀ blkno, state.colors blkno = .unread ↔ blkno ∉ state.reads
  nodup : state.reads.Nodup
  inside : ∀ blkno ∈ state.reads, 0 < blkno ∧ blkno < nblocks
  reached : ∀ blkno, 0 < blkno → blkno < nblocks → blkno ≤ count → blkno ∈ state.reads
  rereads : state.rereads = state.reads
  checkedPages : state.checkedPages = state.reads.length

theorem chainsDone_start : ChainsDone nblocks 0 .start where
  settled blkno := by exact fun absurd => by cases absurd
  done blkno := iff_of_true rfl List.not_mem_nil
  nodup := List.nodup_nil
  inside blkno member := absurd member List.not_mem_nil
  reached blkno positive _ bound := by omega
  rereads := rfl
  checkedPages := rfl

theorem chainsDone_step {count : Nat} {before after : ChainState} {chain : List Nat}
    (state : ChainsDone nblocks count before)
    (step : ChainStep pages nblocks before after (count + 1) chain) :
    ChainsDone nblocks (count + 1) after where
  settled blkno := by
    rw [step.colors, markAll]
    split
    · exact fun absurd => by cases absurd
    · exact state.settled blkno
  done blkno := by
    rw [step.colors, step.reads, markAll, List.mem_append, not_or]
    by_cases member : blkno ∈ chain
    · rw [if_pos member]
      exact iff_of_false (fun absurd => by cases absurd) fun fresh => fresh.2 member
    · rw [if_neg member, state.done]
      exact ⟨fun fresh => ⟨fresh, member⟩, fun fresh => fresh.1⟩
  nodup := by
    rw [step.reads, List.nodup_append]
    refine ⟨state.nodup, step.walk.nodup, fun one earlier other member same => ?_⟩
    rw [same] at earlier
    exact (state.done other).mp (step.walk.free other member).2.2 earlier
  inside blkno member := by
    rw [step.reads] at member
    rcases List.mem_append.mp member with earlier | fresh
    · exact state.inside blkno earlier
    · have unread := step.walk.free blkno fresh
      exact ⟨unread.1, unread.2.1⟩
  reached blkno positive inside bound := by
    rw [step.reads, List.mem_append]
    rcases Nat.lt_or_eq_of_le bound with earlier | last
    · exact Or.inl (state.reached blkno positive inside (by omega))
    · by_cases unread : before.colors blkno = .unread
      · refine Or.inr ?_
        -- an unread start is the first page of its own chain
        cases chain with
        | nil =>
          have start := step.ended blkno (by rw [last]; rfl) ⟨positive, inside, unread⟩
          exact absurd start List.not_mem_nil
        | cons first rest =>
          have start : first = blkno := by
            have place := step.walk.follows 0 first rfl
            rw [last]
            exact (Option.some_injective _ place).symm
          exact start ▸ List.mem_cons_self
      · exact Or.inl (not_not.mp fun fresh => unread ((state.done blkno).mpr fresh))
  rereads := by rw [step.rereads, step.reads, state.rereads]
  checkedPages := by
    rw [step.checkedPages, step.reads, state.checkedPages, List.length_append]

theorem chainsUpTo_succ (count : Nat) : chainsUpTo pages nblocks (count + 1) =
    (chainsUpTo pages nblocks count).bind fun state =>
      validateChain pages nblocks state (count + 1) := by
  rw [chainsUpTo, List.range'_concat, List.foldlM_append, Nat.one_mul, Nat.add_comm 1 count]
  simp only [List.foldlM_cons, List.foldlM_nil]
  rw [← chainsUpTo]
  cases chainsUpTo pages nblocks count with
  | none => rfl
  | some state => exact Option.bind_fun_some _

variable (pages nblocks) in
/-- **Every run of chains ends.** -/
theorem chainsUpTo_done (count : Nat) :
    ∃ state, chainsUpTo pages nblocks count = some state ∧ ChainsDone nblocks count state := by
  induction count with
  | zero => exact ⟨.start, rfl, chainsDone_start⟩
  | succ count ih =>
    obtain ⟨before, run, done⟩ := ih
    obtain ⟨after, chain, ran, step⟩ := validateChain_step pages nblocks done.settled (count + 1)
    exact ⟨after, by rw [chainsUpTo_succ, run]; exact ran, chainsDone_step done step⟩

theorem mem_cycleIssues {chain : List Nat} {issue : Issue}
    (member : issue ∈ cycleIssues pages origin chain) :
    ∃ blkno ∈ chain, issue = ⟨"chain_cycle", some blkno, none, none⟩ := by
  obtain ⟨blkno, found, rfl⟩ := List.mem_map.mp member
  exact ⟨blkno, of_decide_eq_true (List.mem_filter.mp found).2, rfl⟩

theorem cycleIssues_ne_nil {before after : ChainState} {chain : List Nat}
    (step : ChainStep pages nblocks before after origin chain) :
    cycleIssues pages origin chain ≠ [] ↔
      Revisits (linkOf pages) (Unread nblocks before.colors) origin := by
  rw [step.walk.revisits_iff step.ended]
  refine ⟨fun reported => ?_, fun ⟨blkno, member, reached⟩ => ?_⟩
  · obtain ⟨issue, member⟩ := List.exists_mem_of_ne_nil _ reported
    obtain ⟨blkno, found, _⟩ := List.mem_map.mp member
    obtain ⟨reached, inside⟩ := List.mem_filter.mp found
    exact ⟨blkno, of_decide_eq_true inside, Option.mem_toList.mp reached⟩
  · rw [cycleIssues_of_mem reached member]
    exact List.cons_ne_nil _ _

/-- **The walk over all chains**, for any links: it ends, reads each page of the relation once and
once more to settle it; a chain reads only pages that no earlier chain has read, its reports are the
envelope issues of these and a cycle, exactly when following the links from its start through such
pages comes back to one of them. A link to a page of an earlier chain adds nothing. -/
theorem validateAllPageChains_spec (pages : Nat → EnvelopePage) (nblocks : Nat) :
    ∃ final, validateAllPageChains pages nblocks = some final ∧
      final.reads.Nodup ∧ final.rereads = final.reads ∧
      (∀ blkno, blkno ∈ final.reads ↔ 0 < blkno ∧ blkno < nblocks) ∧
      ∀ origin, 0 < origin → origin < nblocks → ∃ before after chain cycles,
        chainsUpTo pages nblocks (origin - 1) = some before ∧
        chainsUpTo pages nblocks origin = some after ∧
        after.reads = before.reads ++ chain ∧
        after.errors = before.errors ++
          (chain.flatMap fun blkno => envelopeIssues nblocks blkno (pages blkno)) ++ cycles ∧
        (∀ issue ∈ cycles, ∃ blkno ∈ chain, issue = ⟨"chain_cycle", some blkno, none, none⟩) ∧
        (cycles ≠ [] ↔ Revisits (linkOf pages)
          (fun blkno => 0 < blkno ∧ blkno < nblocks ∧ blkno ∉ before.reads) origin) := by
  obtain ⟨final, run, done⟩ := chainsUpTo_done pages nblocks (nblocks - 1)
  refine ⟨final, run, done.nodup, done.rereads, fun blkno => ⟨done.inside blkno, fun inside =>
    done.reached blkno inside.1 inside.2 (by omega)⟩, fun origin positive bound => ?_⟩
  obtain ⟨before, earlier, state⟩ :=
    chainsUpTo_done pages nblocks (origin - 1)
  obtain ⟨after, chain, ran, step⟩ := validateChain_step pages nblocks state.settled origin
  have free : Unread nblocks before.colors =
      fun blkno => 0 < blkno ∧ blkno < nblocks ∧ blkno ∉ before.reads := by
    funext blkno
    rw [Unread, state.done]
  refine ⟨before, after, chain, cycleIssues pages origin chain, earlier, ?_, step.reads,
    step.errors, fun issue => mem_cycleIssues, ?_⟩
  · rw [show origin = origin - 1 + 1 by omega, chainsUpTo_succ, earlier,
      show origin - 1 + 1 = origin by omega]
    exact ran
  · rw [← free]
    exact cycleIssues_ne_nil step

/-- Two chains that join: pages `1` and `2` both link to page `3`. -/
def joinedPages : Nat → EnvelopePage
  | 1 => ⟨true, pageIdGraph, 4, some 3⟩
  | 2 => ⟨true, pageIdGraph, 4, some 3⟩
  | _ => ⟨true, pageIdGraph, 4, none⟩

/-- The chain from page `2` meets page `3`, which the chain from page `1` has read, and nothing is
reported. -/
theorem joined_silent :
    (chainsUpTo joinedPages 4 1).map (·.reads) = some [1, 3] ∧
      (chainsUpTo joinedPages 4 2).map (·.reads) = some [1, 3, 2] ∧
      linkOf joinedPages 2 = some 3 ∧
      (validateAllPageChains joinedPages 4).map (·.errors) = some [] := by
  decide

end TurboHybrid.Graph
