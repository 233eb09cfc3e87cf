/-
**The accumulator of documents.**

The hits of every query token are added up by document: a document keeps the best similarity that
each query token has reached, the number of query tokens that have reached it, and the weighted sum
of the best similarities, which is corrected by the difference when a better hit comes. The arrays
of a document stand in slabs of one arena.

* `accumulateAll_holds`: after any stream of hits the score is the weighted sum of the best
  similarities, and the number of matched tokens is the number of tokens seen;
* `accumulateAll_perm`: the order of the hits makes no difference.
-/
import TurboHybrid.Graph.Results
import TurboHybrid.MultiVector.PlainFallback
import Mathlib.Algebra.BigOperators.Group.Finset.Basic
import Mathlib.Algebra.BigOperators.Fin
import Mathlib.Tactic.Ring

set_option linter.unusedSectionVars false

namespace TurboHybrid.Accumulate

open TurboHybrid.PlainFallback TurboHybrid.Graph.Dense

variable {Key : Type} [DecidableEq Key] {queryCount : Nat}
variable {K : Type} [Field K] [LinearOrder K] [IsStrictOrderedRing K]

/-! ### The arena -/

/-- The slabs of the accumulator: how many documents each has, the current one first. -/
structure Arena where
  chunkDocCapacity : Nat
  allocatedDocs : Nat
  allocatedBytes : Nat
  chunks : List Nat

def sizeofArenaChunk : Nat := 32

/-- `AccumulatorArenaAllocChunk`: room for a number and a flag per document and query token. -/
def Arena.allocChunk (queryCount : Nat) (arena : Arena) : Arena :=
  let slotCount := arena.chunkDocCapacity * queryCount
  { arena with
    chunks := 0 :: arena.chunks
    allocatedBytes := arena.allocatedBytes + (sizeofArenaChunk + (8 * slotCount + 1 * slotCount)) }

/-- `AccumulatorArenaAllocDoc`: a document takes the next place of the current slab. -/
def Arena.allocDoc (queryCount : Nat) (arena : Arena) : Arena :=
  let arena :=
    if arena.chunks.head?.all fun used => decide (arena.chunkDocCapacity ≤ used) then
      arena.allocChunk queryCount
    else arena
  { arena with
    chunks := arena.chunks.modifyHead (· + 1)
    allocatedDocs := arena.allocatedDocs + 1 }

/-! ### Documents -/

/-- The entry of a document; a similarity that is not there is below all others. -/
structure DocEntry (queryCount : Nat) (K : Type) where
  heaptid : ItemPointer
  bestNodeId : Nat
  bestSimilarity : Option K
  score : K
  matchedTokens : Nat
  rawHitCount : Nat
  duplicateHitCount : Nat
  maxsim : Fin queryCount → Option K
  seen : Fin queryCount → Bool

/-- The documents by their key, and the arena of their arrays. -/
structure Accumulator (Key : Type) (queryCount : Nat) (K : Type) where
  docs : Key → Option (DocEntry queryCount K)
  arena : Arena

def DocEntry.fresh (hit : GraphResult ItemPointer K) : DocEntry queryCount K where
  heaptid := hit.heaptid
  bestNodeId := hit.nodeId
  bestSimilarity := none
  score := 0
  matchedTokens := 0
  rawHitCount := 0
  duplicateHitCount := 0
  maxsim := fun _ => none
  seen := fun _ => false

def improves (similarity : K) (best : Option K) : Bool :=
  best.all fun best => decide (best < similarity)

namespace DocEntry

variable (entry : DocEntry queryCount K)

/-- The best node of the document, if the hit is it. -/
def bestAfter (hit : GraphResult ItemPointer K) : DocEntry queryCount K :=
  if improves (-hit.distance) entry.bestSimilarity then
    { entry with bestSimilarity := some (-hit.distance), bestNodeId := hit.nodeId }
  else entry

def counted (duplicateDocHit : Bool) : DocEntry queryCount K :=
  { entry with
    rawHitCount := entry.rawHitCount + 1
    duplicateHitCount := entry.duplicateHitCount + if duplicateDocHit then 1 else 0 }

def firstHit (hit : GraphResult ItemPointer K) (queryOrdinal : Fin queryCount) (queryWeight : K) :
    DocEntry queryCount K :=
  { entry.bestAfter hit with
    seen := Function.update entry.seen queryOrdinal true
    matchedTokens := entry.matchedTokens + 1
    maxsim := Function.update entry.maxsim queryOrdinal (some (-hit.distance))
    score := entry.score + -hit.distance * queryWeight }

def betterHit (hit : GraphResult ItemPointer K) (queryOrdinal : Fin queryCount) (queryWeight : K) :
    DocEntry queryCount K :=
  { entry.bestAfter hit with
    maxsim := Function.update entry.maxsim queryOrdinal (some (-hit.distance))
    score := entry.score + (-hit.distance - (entry.maxsim queryOrdinal).getD 0) * queryWeight }

def addHit (hit : GraphResult ItemPointer K) (queryOrdinal : Fin queryCount) (queryWeight : K)
    (duplicateDocHit : Bool) : DocEntry queryCount K :=
  let queryWeight := if queryWeight < 0 then 1 else queryWeight
  let entry := entry.counted duplicateDocHit
  if entry.seen queryOrdinal = false then entry.firstHit hit queryOrdinal queryWeight
  else if improves (-hit.distance) (entry.maxsim queryOrdinal) then
    entry.betterHit hit queryOrdinal queryWeight
  else entry

@[simp]
theorem bestAfter_seen (hit : GraphResult ItemPointer K) :
    (entry.bestAfter hit).seen = entry.seen := by
  rw [bestAfter]
  split_ifs <;> rfl

@[simp]
theorem bestAfter_matchedTokens (hit : GraphResult ItemPointer K) :
    (entry.bestAfter hit).matchedTokens = entry.matchedTokens := by
  rw [bestAfter]
  split_ifs <;> rfl

end DocEntry

/-- **`AccumulateDoc`**: one hit of a query token on a document. -/
def accumulateDoc (accumulator : Accumulator Key queryCount K) (hit : GraphResult ItemPointer K)
    (key : Key) (queryOrdinal : Fin queryCount) (queryWeight : K) (duplicateDocHit : Bool) :
    Accumulator Key queryCount K where
  docs := Function.update accumulator.docs key (some
    (((accumulator.docs key).getD (.fresh hit)).addHit hit queryOrdinal queryWeight
      duplicateDocHit))
  arena :=
    if (accumulator.docs key).isNone then accumulator.arena.allocDoc queryCount
    else accumulator.arena

/-! ### Streams of hits -/

structure TokenHit (Key : Type) (queryCount : Nat) (K : Type) where
  hit : GraphResult ItemPointer K
  key : Key
  queryOrdinal : Fin queryCount
  duplicateDocHit : Bool

def accumulateHit (queryWeight : Fin queryCount → K) (accumulator : Accumulator Key queryCount K)
    (call : TokenHit Key queryCount K) : Accumulator Key queryCount K :=
  accumulateDoc accumulator call.hit call.key call.queryOrdinal (queryWeight call.queryOrdinal)
    call.duplicateDocHit

def accumulateAll (queryWeight : Fin queryCount → K) (arena : Arena)
    (stream : List (TokenHit Key queryCount K)) : Accumulator Key queryCount K :=
  stream.foldl (accumulateHit queryWeight) ⟨fun _ => none, arena⟩

def usedWeight (queryWeight : K) : K := if queryWeight < 0 then 1 else queryWeight

/-- The similarities that a query token has reached on a document. -/
def similarities (stream : List (TokenHit Key queryCount K)) (key : Key)
    (queryOrdinal : Fin queryCount) : List K :=
  (stream.filter fun call => call.key = key ∧ call.queryOrdinal = queryOrdinal).map fun call =>
    -call.hit.distance

def bestSimilarityOf (stream : List (TokenHit Key queryCount K)) (key : Key)
    (queryOrdinal : Fin queryCount) : Option K :=
  (similarities stream key queryOrdinal).max?

/-- **What an entry holds** after a stream of hits. -/
structure Sums (queryWeight : Fin queryCount → K) (best : Fin queryCount → Option K)
    (entry : DocEntry queryCount K) : Prop where
  maxsim : entry.maxsim = best
  seen : ∀ queryOrdinal, entry.seen queryOrdinal = (best queryOrdinal).isSome
  matchedTokens : entry.matchedTokens = (Finset.univ.filter fun qi => (best qi).isSome).card
  score : entry.score = ∑ qi, usedWeight (queryWeight qi) * (best qi).getD 0

/-- The entry of a document is there when it has a hit, and holds the sums. -/
def Holds (queryWeight : Fin queryCount → K) (stream : List (TokenHit Key queryCount K))
    (key : Key) : Option (DocEntry queryCount K) → Prop
  | none => ∀ call ∈ stream, call.key ≠ key
  | some entry => (∃ call ∈ stream, call.key = key) ∧
      Sums queryWeight (bestSimilarityOf stream key) entry

/-! ### One hit -/

theorem max?_concat (values : List K) (value : K) :
    (values ++ [value]).max? = some (values.max?.elim value fun best => max best value) := by
  rcases values with _ | ⟨first, rest⟩
  · rfl
  · rw [List.cons_append, List.max?_cons', List.foldl_append, List.max?_cons']
    rfl

theorem bestSimilarityOf_concat (stream : List (TokenHit Key queryCount K))
    (call : TokenHit Key queryCount K) (key : Key) :
    bestSimilarityOf (stream ++ [call]) key =
      if call.key = key then
        Function.update (bestSimilarityOf stream key) call.queryOrdinal
          (some ((bestSimilarityOf stream key call.queryOrdinal).elim (-call.hit.distance)
            fun best => max best (-call.hit.distance)))
      else bestSimilarityOf stream key := by
  funext queryOrdinal
  have split : similarities (stream ++ [call]) key queryOrdinal =
      similarities stream key queryOrdinal ++
        if call.key = key ∧ call.queryOrdinal = queryOrdinal then [-call.hit.distance] else [] := by
    rw [similarities, List.filter_append, List.map_append, similarities]
    split_ifs with here
    · rw [List.filter_cons_of_pos (by simpa using here)]
      rfl
    · rw [List.filter_cons_of_neg (by simpa using here)]
      rfl
  rw [bestSimilarityOf, split]
  by_cases same : call.key = key
  · rw [if_pos same]
    by_cases here : call.queryOrdinal = queryOrdinal
    · subst here
      rw [if_pos ⟨same, rfl⟩, Function.update_self, max?_concat]
      rfl
    · rw [if_neg fun both => here both.2, List.append_nil,
        Function.update_of_ne (Ne.symm here)]
      rfl
  · rw [if_neg fun both => same both.1, if_neg same, List.append_nil]
    rfl

section Sums

variable {queryWeight : Fin queryCount → K} {best : Fin queryCount → Option K}

theorem sum_update (queryWeight : Fin queryCount → K) (best : Fin queryCount → Option K)
    (queryOrdinal : Fin queryCount) (similarity : K) :
    ∑ qi, usedWeight (queryWeight qi) *
        (Function.update best queryOrdinal (some similarity) qi).getD 0 =
      (∑ qi, usedWeight (queryWeight qi) * (best qi).getD 0) +
        (similarity - (best queryOrdinal).getD 0) * usedWeight (queryWeight queryOrdinal) := by
  rw [← Finset.add_sum_erase _ _ (Finset.mem_univ queryOrdinal),
    ← Finset.add_sum_erase (a := queryOrdinal) _ _ (Finset.mem_univ queryOrdinal),
    Function.update_self, Option.getD_some]
  have others : ∑ qi ∈ Finset.univ.erase queryOrdinal, usedWeight (queryWeight qi) *
        (Function.update best queryOrdinal (some similarity) qi).getD 0 =
      ∑ qi ∈ Finset.univ.erase queryOrdinal, usedWeight (queryWeight qi) * (best qi).getD 0 := by
    apply Finset.sum_congr rfl
    intro qi member
    rw [Function.update_of_ne (Finset.ne_of_mem_erase member)]
  rw [others]
  ring

theorem card_update (queryOrdinal : Fin queryCount) (fresh : best queryOrdinal = none)
    (similarity : K) :
    (Finset.univ.filter fun qi =>
        (Function.update best queryOrdinal (some similarity) qi).isSome).card =
      (Finset.univ.filter fun qi => (best qi).isSome).card + 1 := by
  rw [← Finset.card_insert_of_notMem (a := queryOrdinal) (by simp [fresh])]
  congr 1
  ext qi
  by_cases same : qi = queryOrdinal
  · subst same
    simp
  · simp [same]

theorem isSome_update (queryOrdinal : Fin queryCount) (similarity : K) (qi : Fin queryCount) :
    Function.update (fun qi => (best qi).isSome) queryOrdinal true qi =
      (Function.update best queryOrdinal (some similarity) qi).isSome := by
  by_cases same : qi = queryOrdinal
  · subst same
    simp
  · rw [Function.update_of_ne same, Function.update_of_ne same]

variable {entry : DocEntry queryCount K}

theorem Sums.firstHit (sums : Sums queryWeight best entry) (hit : GraphResult ItemPointer K)
    {queryOrdinal : Fin queryCount} (fresh : best queryOrdinal = none) :
    Sums queryWeight (Function.update best queryOrdinal (some (-hit.distance)))
      (entry.firstHit hit queryOrdinal (usedWeight (queryWeight queryOrdinal))) where
  maxsim := by rw [DocEntry.firstHit, sums.maxsim]
  seen := by
    have flags : entry.seen = fun qi => (best qi).isSome := funext sums.seen
    rw [DocEntry.firstHit, flags]
    exact isSome_update queryOrdinal (-hit.distance)
  matchedTokens := by
    rw [card_update queryOrdinal fresh, ← sums.matchedTokens]
    rfl
  score := by
    rw [sum_update, ← sums.score, fresh, Option.getD_none, sub_zero]
    rfl

theorem Sums.betterHit (sums : Sums queryWeight best entry) (hit : GraphResult ItemPointer K)
    {queryOrdinal : Fin queryCount} {reached : K} (known : best queryOrdinal = some reached) :
    Sums queryWeight (Function.update best queryOrdinal (some (-hit.distance)))
      (entry.betterHit hit queryOrdinal (usedWeight (queryWeight queryOrdinal))) := by
  have same (qi : Fin queryCount) :
      (Function.update best queryOrdinal (some (-hit.distance)) qi).isSome = (best qi).isSome := by
    by_cases here : qi = queryOrdinal
    · subst here
      rw [Function.update_self, known]
      rfl
    · rw [Function.update_of_ne here]
  constructor
  · rw [DocEntry.betterHit, sums.maxsim]
  · intro qi
    rw [same, ← sums.seen, DocEntry.betterHit, DocEntry.bestAfter_seen]
  · simp only [same, DocEntry.betterHit, DocEntry.bestAfter_matchedTokens]
    exact sums.matchedTokens
  · rw [sum_update, ← sums.score, DocEntry.betterHit, sums.maxsim]

/-- **One hit** keeps the sums. -/
theorem Sums.addHit (sums : Sums queryWeight best entry) (hit : GraphResult ItemPointer K)
    (queryOrdinal : Fin queryCount) (duplicateDocHit : Bool) :
    Sums queryWeight
      (Function.update best queryOrdinal (some ((best queryOrdinal).elim (-hit.distance) fun best =>
        max best (-hit.distance))))
      (entry.addHit hit queryOrdinal (queryWeight queryOrdinal) duplicateDocHit) := by
  have counted : Sums queryWeight best (entry.counted duplicateDocHit) := { sums with }
  rw [DocEntry.addHit, counted.seen, counted.maxsim]
  rcases known : best queryOrdinal with _ | reached
  · exact counted.firstHit hit known
  · rw [if_neg (by simp)]
    by_cases better : improves (-hit.distance) (some reached)
    · have above : reached < -hit.distance := of_decide_eq_true better
      rw [if_pos better, Option.elim_some, max_eq_right above.le]
      exact counted.betterHit hit known
    · have below : -hit.distance ≤ reached := not_lt.mp fun above => better (decide_eq_true above)
      rw [if_neg better, Option.elim_some, max_eq_left below, ← known, Function.update_eq_self]
      exact counted

end Sums

/-! ### Streams -/

variable {queryWeight : Fin queryCount → K}

theorem bestSimilarityOf_none {stream : List (TokenHit Key queryCount K)} {key : Key}
    (absent : ∀ call ∈ stream, call.key ≠ key) : bestSimilarityOf stream key = fun _ => none := by
  funext queryOrdinal
  have empty : stream.filter (fun call => call.key = key ∧ call.queryOrdinal = queryOrdinal) = [] :=
    List.filter_eq_nil_iff.mpr fun call member => by simp [absent call member]
  rw [bestSimilarityOf, similarities, empty]
  rfl

theorem sums_fresh (hit : GraphResult ItemPointer K) :
    Sums queryWeight (fun _ => none) (DocEntry.fresh hit : DocEntry queryCount K) :=
  ⟨rfl, fun _ => rfl, by simp [DocEntry.fresh], by simp [DocEntry.fresh]⟩

theorem accumulateHit_holds {accumulator : Accumulator Key queryCount K}
    {stream : List (TokenHit Key queryCount K)}
    (holds : ∀ key, Holds queryWeight stream key (accumulator.docs key))
    (call : TokenHit Key queryCount K) (key : Key) :
    Holds queryWeight (stream ++ [call]) key
      ((accumulateHit queryWeight accumulator call).docs key) := by
  rw [accumulateHit, accumulateDoc]
  dsimp only
  by_cases same : call.key = key
  · subst same
    rw [Function.update_self]
    refine ⟨⟨call, List.mem_append_right _ List.mem_cons_self, rfl⟩, ?_⟩
    rw [bestSimilarityOf_concat, if_pos rfl]
    have here := holds call.key
    rcases found : accumulator.docs call.key with _ | entry
    · rw [found] at here
      rw [bestSimilarityOf_none here, Option.getD_none]
      exact (sums_fresh call.hit).addHit call.hit call.queryOrdinal call.duplicateDocHit
    · rw [found] at here
      exact here.2.addHit call.hit call.queryOrdinal call.duplicateDocHit
  · rw [Function.update_of_ne (Ne.symm same)]
    have here := holds key
    rcases found : accumulator.docs key with _ | entry
    · rw [found] at here
      intro other member
      rcases List.mem_append.mp member with early | late
      · exact here other early
      · exact List.mem_singleton.mp late ▸ same
    · rw [found] at here
      obtain ⟨⟨other, member, known⟩, sums⟩ := here
      refine ⟨⟨other, List.mem_append_left _ member, known⟩, ?_⟩
      rw [bestSimilarityOf_concat, if_neg same]
      exact sums

/-- **What the accumulator holds** after any stream of hits. -/
theorem accumulateAll_holds (queryWeight : Fin queryCount → K) (arena : Arena)
    (stream : List (TokenHit Key queryCount K)) (key : Key) :
    Holds queryWeight stream key ((accumulateAll queryWeight arena stream).docs key) := by
  induction stream using List.reverseRecOn generalizing key with
  | nil => exact fun call member => absurd member List.not_mem_nil
  | append_singleton stream call ih =>
    rw [accumulateAll, List.foldl_concat]
    exact accumulateHit_holds ih call key

theorem bestSimilarityOf_perm {stream stream' : List (TokenHit Key queryCount K)}
    (same : stream.Perm stream') (key : Key) :
    bestSimilarityOf stream key = bestSimilarityOf stream' key := by
  funext queryOrdinal
  have parts : (similarities stream key queryOrdinal).Perm
      (similarities stream' key queryOrdinal) := (same.filter _).map _
  rw [bestSimilarityOf, bestSimilarityOf]
  rcases known : (similarities stream' key queryOrdinal).max? with _ | best
  · rw [List.max?_eq_none_iff.mp known] at parts
    rw [parts.eq_nil]
    rfl
  · obtain ⟨member, above⟩ := List.max?_eq_some_iff.mp known
    apply List.max?_eq_some_iff.mpr
    exact ⟨parts.mem_iff.mpr member, fun other inside => above other (parts.mem_iff.mp inside)⟩

/-- The part of an entry that a stream of hits determines. -/
def DocEntry.sums (entry : DocEntry queryCount K) :
    K × Nat × (Fin queryCount → Option K) × (Fin queryCount → Bool) :=
  (entry.score, entry.matchedTokens, entry.maxsim, entry.seen)

theorem Sums.unique {best : Fin queryCount → Option K} {entry entry' : DocEntry queryCount K}
    (sums : Sums queryWeight best entry) (sums' : Sums queryWeight best entry') :
    entry.sums = entry'.sums := by
  have flags : entry.seen = entry'.seen := by
    funext qi
    rw [sums.seen, sums'.seen]
  rw [DocEntry.sums, DocEntry.sums, sums.score, sums'.score, sums.matchedTokens,
    sums'.matchedTokens, sums.maxsim, sums'.maxsim, flags]

/-- **The order of the hits** makes no difference. -/
theorem accumulateAll_perm (queryWeight : Fin queryCount → K) (arena arena' : Arena)
    {stream stream' : List (TokenHit Key queryCount K)} (same : stream.Perm stream') (key : Key) :
    ((accumulateAll queryWeight arena stream).docs key).map DocEntry.sums =
      ((accumulateAll queryWeight arena' stream').docs key).map DocEntry.sums := by
  have holds := accumulateAll_holds queryWeight arena stream key
  have holds' := accumulateAll_holds queryWeight arena' stream' key
  generalize (accumulateAll queryWeight arena stream).docs key = found at holds ⊢
  generalize (accumulateAll queryWeight arena' stream').docs key = found' at holds' ⊢
  rcases found with _ | entry <;> rcases found' with _ | entry'
  · rfl
  · obtain ⟨call, member, known⟩ := holds'.1
    exact absurd known (holds call (same.mem_iff.mpr member))
  · obtain ⟨call, member, known⟩ := holds.1
    exact absurd known (holds' call (same.mem_iff.mp member))
  · have sums := holds.2
    rw [bestSimilarityOf_perm same] at sums
    exact congrArg some (sums.unique holds'.2)

/-! ### The TID of an entry -/

theorem DocEntry.addHit_heaptid (entry : DocEntry queryCount K) (hit : GraphResult ItemPointer K)
    (queryOrdinal : Fin queryCount) (queryWeight : K) (duplicateDocHit : Bool) :
    (entry.addHit hit queryOrdinal queryWeight duplicateDocHit).heaptid = entry.heaptid := by
  have best (other : DocEntry queryCount K) : (other.bestAfter hit).heaptid = other.heaptid := by
    rw [bestAfter]
    split_ifs <;> rfl
  rw [addHit]
  generalize (if queryWeight < 0 then 1 else queryWeight) = weight
  split_ifs
  · exact best _
  · exact best _
  · rfl

theorem accumulateAll_heaptid (arena : Arena) (stream : List (TokenHit Key queryCount K))
    {key : Key} {entry : DocEntry queryCount K}
    (found : (accumulateAll queryWeight arena stream).docs key = some entry) :
    ∃ call ∈ stream, call.key = key ∧ call.hit.heaptid = entry.heaptid := by
  induction stream using List.reverseRecOn generalizing entry with
  | nil => exact absurd found (by simp [accumulateAll])
  | append_singleton stream call ih =>
    rw [accumulateAll, List.foldl_concat, ← accumulateAll, accumulateHit, accumulateDoc] at found
    dsimp only at found
    by_cases same : call.key = key
    · subst same
      rw [Function.update_self, Option.some_inj] at found
      rcases earlier : (accumulateAll queryWeight arena stream).docs call.key with _ | before
      · rw [earlier] at found
        refine ⟨call, List.mem_append_right _ List.mem_cons_self, rfl, ?_⟩
        rw [← found, DocEntry.addHit_heaptid]
        rfl
      · rw [earlier] at found
        obtain ⟨other, member, known, tid⟩ := ih earlier
        refine ⟨other, List.mem_append_left _ member, known, ?_⟩
        rw [tid, ← found, DocEntry.addHit_heaptid]
        rfl
    · rw [Function.update_of_ne (Ne.symm same)] at found
      obtain ⟨other, member, known, tid⟩ := ih found
      exact ⟨other, List.mem_append_left _ member, known, tid⟩

end TurboHybrid.Accumulate
