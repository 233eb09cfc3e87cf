/-
**The reservoirs of candidates.**

The documents of the accumulator fill the candidates in turns: the best by score, the best of every
query token, the best by coverage and by mean, and again by score. A document is taken once. The
candidates of a proxy search are put into another order: the best ones, a spread over all ranks,
and the rest.

* `scoreLimit_eq`, `proxyScoreLimit_eq`: the shares are computed without overflow;
* `buildReservoir_spec`: the documents that are taken, and that the best ones come first;
* `buildReservoir_perm`: the order of the documents in the table makes no difference;
* `applyProxyReservoir_spec`: the other order is a permutation that begins with different documents.
-/
import TurboHybrid.Library.Lanes
import TurboHybrid.MultiVector.Accumulate
import TurboHybrid.MultiVector.HeapRerank
import Mathlib.Data.List.Nodup

set_option linter.unusedSectionVars false

namespace TurboHybrid.Reservoirs

open TurboHybrid.Library.Lanes TurboHybrid.PlainFallback TurboHybrid.Accumulate
open TurboHybrid.Rerank (Candidate)
open scoped List

variable {queryCount : Nat}
variable {K : Type} [Field K] [LinearOrder K] [IsStrictOrderedRing K]

/-! ### Shares -/

/-- The modes that select candidates by reservoirs. -/
inductive ReservoirMode
  | conservative
  | balanced
  deriving DecidableEq, Repr

/-- How many documents go by score first, in the integers of the program. -/
def scoreLimit (mode : ReservoirMode) (docLimit coverageLimit meanLimit perTokenLimit
    queryCount : Int) : Int :=
  match mode with
  | .balanced => max 1 (docLimit / 2)
  | .conservative =>
    let reserved := min (docLimit / 2) (wrap 32 (wrap 32 (coverageLimit + meanLimit) +
      wrap 32 (perTokenLimit * max queryCount 1)))
    max 1 (wrap 32 (docLimit - reserved))

def proxyScoreLimit (mode : ReservoirMode) (rerankLimit : Int) : Int :=
  match mode with
  | .balanced => max 1 (rerankLimit / 2)
  | .conservative => max 1 (wrap 32 (rerankLimit * 3) / 4)

/-! ### Ranks -/

structure RankedDoc (queryCount : Nat) (K : Type) where
  docId : Nat
  entry : DocEntry queryCount K

def compareDocRank (a b : RankedDoc queryCount K) : Int :=
  if a.entry.score > b.entry.score then -1
  else if a.entry.score < b.entry.score then 1
  else if a.entry.heaptid.block < b.entry.heaptid.block then -1
  else if a.entry.heaptid.block > b.entry.heaptid.block then 1
  else if a.entry.heaptid.offset < b.entry.heaptid.offset then -1
  else if a.entry.heaptid.offset > b.entry.heaptid.offset then 1
  else (if a.docId > b.docId then 1 else 0) - (if a.docId < b.docId then 1 else 0)

/-- A document with what a reservoir ranks it by; a value that is not there is below all others. -/
structure RankItem (queryCount : Nat) (K : Type) where
  doc : RankedDoc queryCount K
  value : WithBot K
  secondary : K
  coverage : Nat

def compareReservoirRankItem (a b : RankItem queryCount K) : Int :=
  if a.value > b.value then -1
  else if a.value < b.value then 1
  else if a.secondary > b.secondary then -1
  else if a.secondary < b.secondary then 1
  else if a.coverage > b.coverage then -1
  else if a.coverage < b.coverage then 1
  else compareDocRank a.doc b.doc

def sortDocs (docs : List (RankedDoc queryCount K)) : List (RankedDoc queryCount K) :=
  docs.insertionSort fun a b => compareDocRank a b ≤ 0

def sortItems (items : List (RankItem queryCount K)) : List (RankItem queryCount K) :=
  items.insertionSort fun a b => compareReservoirRankItem a b ≤ 0

/-! ### Taking documents -/

/-- `ReservoirAddDoc`: a document is taken once, while there is room. -/
def addDoc (docLimit : Nat) (chosen : List (RankedDoc queryCount K))
    (doc : RankedDoc queryCount K) : List (RankedDoc queryCount K) × Bool :=
  if doc.docId ∈ chosen.map RankedDoc.docId then (chosen, false)
  else if docLimit ≤ chosen.length then (chosen, false)
  else (chosen ++ [doc], true)

/-- Documents in their order, until so many have been taken. -/
def addUntil (docLimit limit : Nat) : List (RankedDoc queryCount K) → Nat →
    List (RankedDoc queryCount K) → List (RankedDoc queryCount K)
  | [], _, chosen => chosen
  | doc :: docs, seen, chosen =>
    if limit ≤ seen then chosen
    else
      let added := addDoc docLimit chosen doc
      if docLimit ≤ added.1.length then added.1
      else addUntil docLimit limit docs (if added.2 then seen + 1 else seen) added.1

/-- Documents in their order, until there is no room. -/
def addAll (docLimit : Nat) : List (RankedDoc queryCount K) → List (RankedDoc queryCount K) →
    List (RankedDoc queryCount K)
  | [], chosen => chosen
  | doc :: docs, chosen =>
    let added := addDoc docLimit chosen doc
    if docLimit ≤ added.1.length then added.1 else addAll docLimit docs added.1

/-! ### The passes -/

structure ReservoirSettings where
  mode : ReservoirMode
  docLimit : Nat
  coverageReservoirK : Nat
  perTokenDocReservoirK : Nat

namespace ReservoirSettings

variable (settings : ReservoirSettings)

def coverageLimit : Nat := min settings.coverageReservoirK settings.docLimit

def perTokenLimit : Nat := min settings.perTokenDocReservoirK settings.docLimit

def share (queryCount : Nat) : Nat :=
  (scoreLimit settings.mode settings.docLimit settings.coverageLimit settings.coverageLimit
    settings.perTokenLimit queryCount).toNat

end ReservoirSettings

/-- What a token ranks the documents by that it has reached. -/
def tokenItem (qi : Fin queryCount) (doc : RankedDoc queryCount K) : RankItem queryCount K :=
  ⟨doc, doc.entry.maxsim qi, doc.entry.score, doc.entry.matchedTokens⟩

def coverageItem (doc : RankedDoc queryCount K) : RankItem queryCount K :=
  ⟨doc, ((doc.entry.matchedTokens : K) : WithBot K), doc.entry.score, doc.entry.matchedTokens⟩

def meanItem (doc : RankedDoc queryCount K) : RankItem queryCount K :=
  ⟨doc, if 0 < doc.entry.matchedTokens then
      ((doc.entry.score / (doc.entry.matchedTokens : K) : K) : WithBot K)
    else ⊥, doc.entry.score, doc.entry.matchedTokens⟩

def rankBy (item : RankedDoc queryCount K → RankItem queryCount K)
    (docs : List (RankedDoc queryCount K)) : List (RankedDoc queryCount K) :=
  (sortItems (docs.map item)).map RankItem.doc

def whenRoom (docLimit : Nat) (pass : List (RankedDoc queryCount K) → List (RankedDoc queryCount K))
    (chosen : List (RankedDoc queryCount K)) : List (RankedDoc queryCount K) :=
  if chosen.length < docLimit then pass chosen else chosen

def addPerTokenDocs (docLimit perTokenLimit : Nat) (ranked chosen : List (RankedDoc queryCount K)) :
    List (RankedDoc queryCount K) :=
  (List.finRange queryCount).foldl (fun chosen qi =>
    whenRoom docLimit (addAll docLimit ((rankBy (tokenItem qi)
      (ranked.filter fun doc => doc.entry.seen qi)).take perTokenLimit)) chosen) chosen

/-- **`BuildReservoirCandidates`**: the documents that are taken, in their order. -/
def buildReservoir (settings : ReservoirSettings) (docs : List (RankedDoc queryCount K)) :
    List (RankedDoc queryCount K) :=
  let docLimit := settings.docLimit
  let ranked := sortDocs docs
  if docs = [] ∨ docLimit = 0 then []
  else
    let chosen := addUntil docLimit (settings.share queryCount) ranked 0 []
    let chosen := whenRoom docLimit
      (addPerTokenDocs docLimit settings.perTokenLimit ranked) chosen
    let chosen := whenRoom docLimit
      (addUntil docLimit settings.coverageLimit (rankBy coverageItem ranked) 0) chosen
    let chosen := whenRoom docLimit
      (addUntil docLimit settings.coverageLimit (rankBy meanItem ranked) 0) chosen
    whenRoom docLimit (addUntil docLimit docLimit ranked 0) chosen

/-- `CandidateFromDoc`. -/
def candidateFromDoc (queryWeightSum : K) (doc : RankedDoc queryCount K) : Candidate K :=
  let divisor := if queryWeightSum > 0 then queryWeightSum else (queryCount : K)
  { heaptid := doc.entry.heaptid
    nodeId := doc.entry.bestNodeId
    docId := some doc.docId
    distance := -doc.entry.score
    similarity := if divisor > 0 then doc.entry.score / divisor else 0
    exactScored := false }

def reservoirCandidates (settings : ReservoirSettings) (queryWeightSum : K)
    (docs : List (RankedDoc queryCount K)) : List (Candidate K) :=
  (buildReservoir settings docs).map (candidateFromDoc queryWeightSum)

/-! ### The shares -/

/-- The greatest number of documents that a scan returns. -/
def docCandidateK : Nat := 100

def maxQueryVectors : Nat := 64

/-- The greatest number of documents that are scored exactly. -/
def maxExactRerankK : Nat := 1000000

def exactShare (mode : ReservoirMode) (docLimit coverageLimit perTokenLimit queryCount : Nat) :
    Nat :=
  match mode with
  | .balanced => max 1 (docLimit / 2)
  | .conservative => max 1 (docLimit -
      min (docLimit / 2) (coverageLimit + coverageLimit + perTokenLimit * max queryCount 1))

def exactProxyShare (mode : ReservoirMode) (rerankLimit : Nat) : Nat :=
  match mode with
  | .balanced => max 1 (rerankLimit / 2)
  | .conservative => max 1 (rerankLimit * 3 / 4)

/-- **The share is computed without overflow.** -/
theorem scoreLimit_eq (mode : ReservoirMode) {docLimit coverageLimit perTokenLimit queryCount : Nat}
    (admitted : docLimit ≤ docCandidateK) (tokens : queryCount ≤ maxQueryVectors)
    (coverage : coverageLimit ≤ docLimit) (perToken : perTokenLimit ≤ docLimit) :
    scoreLimit mode docLimit coverageLimit coverageLimit perTokenLimit queryCount =
      exactShare mode docLimit coverageLimit perTokenLimit queryCount := by
  rw [docCandidateK] at admitted
  rw [maxQueryVectors] at tokens
  cases mode with
  | balanced =>
    rw [scoreLimit, exactShare]
    push_cast
    rfl
  | conservative =>
    have product : perTokenLimit * max queryCount 1 ≤ 100 * 64 :=
      Nat.mul_le_mul (perToken.trans admitted) (max_le tokens (by decide))
    have split : ((perTokenLimit * max queryCount 1 : Nat) : Int) =
        (perTokenLimit : Int) * max (queryCount : Int) 1 := by
      push_cast
      rfl
    rw [scoreLimit, exactShare, ← split]
    generalize perTokenLimit * max queryCount 1 = tokenDocs at product
    have sum : wrap 32 ((coverageLimit : Int) + coverageLimit) = coverageLimit + coverageLimit :=
      wrap_eq (by decide) (by omega) (by omega)
    have part : wrap 32 (tokenDocs : Int) = tokenDocs := wrap_eq (by decide) (by omega) (by omega)
    have whole : wrap 32 ((coverageLimit : Int) + coverageLimit + tokenDocs) =
        coverageLimit + coverageLimit + tokenDocs := wrap_eq (by decide) (by omega) (by omega)
    rw [sum, part, whole]
    rw [wrap_eq (by decide) (by omega) (by omega)]
    omega

theorem proxyScoreLimit_eq (mode : ReservoirMode) {rerankLimit : Nat}
    (admitted : rerankLimit ≤ maxExactRerankK) :
    proxyScoreLimit mode rerankLimit = exactProxyShare mode rerankLimit := by
  rw [maxExactRerankK] at admitted
  cases mode with
  | balanced =>
    rw [proxyScoreLimit, exactProxyShare]
    push_cast
    rfl
  | conservative =>
    rw [proxyScoreLimit, exactProxyShare]
    rw [wrap_eq (by decide) (by omega) (by omega)]
    push_cast
    rfl

/-! ### The order of the ranks -/

def RankedDoc.rankKey (doc : RankedDoc queryCount K) : Kᵒᵈ ×ₗ Nat ×ₗ Nat ×ₗ Nat :=
  toLex (OrderDual.toDual doc.entry.score, toLex (doc.entry.heaptid.block,
    toLex (doc.entry.heaptid.offset, doc.docId)))

theorem compareDocRank_le (a b : RankedDoc queryCount K) :
    compareDocRank a b ≤ 0 ↔ a.rankKey ≤ b.rankKey := by
  simp only [RankedDoc.rankKey, Prod.Lex.toLex_le_toLex, OrderDual.toDual_lt_toDual,
    OrderDual.toDual_inj, compareDocRank]
  split_ifs <;> grind

theorem sortDocs_perm (docs : List (RankedDoc queryCount K)) : (sortDocs docs).Perm docs :=
  List.perm_insertionSort _ docs

theorem sortDocs_pairwise (docs : List (RankedDoc queryCount K)) :
    (sortDocs docs).Pairwise fun a b => a.rankKey ≤ b.rankKey := by
  have keys : (sortDocs docs).map RankedDoc.rankKey =
      (docs.map RankedDoc.rankKey).insertionSort (· ≤ ·) :=
    List.map_insertionSort _ _ RankedDoc.rankKey docs fun a _ b _ => compareDocRank_le a b
  rw [← List.pairwise_map, keys]
  exact List.pairwise_insertionSort _ _

/-- **The ranks do not depend on the order of the table.** -/
theorem sortDocs_eq {docs docs' : List (RankedDoc queryCount K)}
    (distinct : (docs.map RankedDoc.docId).Nodup) (same : docs.Perm docs') :
    sortDocs docs = sortDocs docs' := by
  refine List.Perm.eq_of_pairwise ?_ (sortDocs_pairwise docs) (sortDocs_pairwise docs')
    ((sortDocs_perm docs).trans (same.trans (sortDocs_perm docs').symm))
  intro a b inside inside' below above
  have key : a.rankKey = b.rankKey := le_antisymm below above
  have ids : a.docId = b.docId := congrArg (fun key => (ofLex (ofLex (ofLex key).2).2).2) key
  have member : a ∈ docs := (sortDocs_perm docs).mem_iff.mp inside
  have member' : b ∈ docs := same.mem_iff.mpr ((sortDocs_perm docs').mem_iff.mp inside')
  exact List.inj_on_of_nodup_map distinct member member' ids

theorem mem_rankBy {item : RankedDoc queryCount K → RankItem queryCount K}
    (owns : ∀ doc, (item doc).doc = doc) {docs : List (RankedDoc queryCount K)}
    {doc : RankedDoc queryCount K} (member : doc ∈ rankBy item docs) : doc ∈ docs := by
  obtain ⟨ranked, inside, rfl⟩ := List.mem_map.mp member
  obtain ⟨own, listed, rfl⟩ :=
    List.mem_map.mp ((List.perm_insertionSort _ (docs.map item)).mem_iff.mp inside)
  rw [owns]
  exact listed

/-! ### The passes -/

section Passes

variable {docs : List (RankedDoc queryCount K)} {docLimit : Nat}

/-- Documents of the table that were taken, each once. -/
structure Taken (docs : List (RankedDoc queryCount K)) (docLimit : Nat)
    (chosen : List (RankedDoc queryCount K)) : Prop where
  distinct : (chosen.map RankedDoc.docId).Nodup
  part : ∀ doc ∈ chosen, doc ∈ docs
  room : chosen.length ≤ docLimit

/-- **A pass** takes further documents of the table. -/
def Passes (docs : List (RankedDoc queryCount K)) (docLimit : Nat)
    (pass : List (RankedDoc queryCount K) → List (RankedDoc queryCount K)) : Prop :=
  ∀ chosen, Taken docs docLimit chosen →
    Taken docs docLimit (pass chosen) ∧ chosen <+: pass chosen

theorem Passes.comp {first second : List (RankedDoc queryCount K) → List (RankedDoc queryCount K)}
    (one : Passes docs docLimit first) (other : Passes docs docLimit second) :
    Passes docs docLimit fun chosen => second (first chosen) := by
  intro chosen taken
  obtain ⟨middle, kept⟩ := one chosen taken
  obtain ⟨last, more⟩ := other _ middle
  exact ⟨last, kept.trans more⟩

theorem passes_id : Passes docs docLimit fun chosen => chosen :=
  fun _ taken => ⟨taken, List.prefix_refl _⟩

theorem passes_addDoc {doc : RankedDoc queryCount K} (inside : doc ∈ docs) :
    Passes docs docLimit fun chosen => (addDoc docLimit chosen doc).1 := by
  intro chosen taken
  dsimp only
  rw [addDoc]
  split_ifs with known full
  · exact ⟨taken, List.prefix_refl _⟩
  · exact ⟨taken, List.prefix_refl _⟩
  · refine ⟨⟨?_, ?_, ?_⟩, List.prefix_append _ _⟩
    · rw [List.map_append, List.map_singleton]
      refine taken.distinct.append (List.nodup_singleton _) fun docId old new => ?_
      exact known (List.mem_singleton.mp new ▸ old)
    · intro other member
      rcases List.mem_append.mp member with old | new
      · exact taken.part other old
      · rw [List.mem_singleton.mp new]
        exact inside
    · rw [List.length_append, List.length_singleton]
      omega

theorem passes_addUntil (limit : Nat) {items : List (RankedDoc queryCount K)}
    (inside : ∀ doc ∈ items, doc ∈ docs) (seen : Nat) :
    Passes docs docLimit (addUntil docLimit limit items seen) := by
  induction items generalizing seen with
  | nil => exact passes_id
  | cons doc items ih =>
    intro chosen taken
    rw [addUntil]
    obtain ⟨one, kept⟩ := passes_addDoc (inside doc List.mem_cons_self) chosen taken
    dsimp only
    split_ifs
    · exact ⟨taken, List.prefix_refl _⟩
    · exact ⟨one, kept⟩
    all_goals
      obtain ⟨rest, more⟩ := ih (fun other member => inside other (List.mem_cons_of_mem _ member))
        _ _ one
      exact ⟨rest, kept.trans more⟩

theorem passes_addAll {items : List (RankedDoc queryCount K)}
    (inside : ∀ doc ∈ items, doc ∈ docs) : Passes docs docLimit (addAll docLimit items) := by
  induction items with
  | nil => exact passes_id
  | cons doc items ih =>
    intro chosen taken
    rw [addAll]
    obtain ⟨one, kept⟩ := passes_addDoc (inside doc List.mem_cons_self) chosen taken
    split_ifs
    · exact ⟨one, kept⟩
    · obtain ⟨rest, more⟩ := ih (fun other member => inside other (List.mem_cons_of_mem _ member))
        _ one
      exact ⟨rest, kept.trans more⟩

theorem Passes.whenRoom {pass : List (RankedDoc queryCount K) → List (RankedDoc queryCount K)}
    (passes : Passes docs docLimit pass) : Passes docs docLimit (whenRoom docLimit pass) := by
  intro chosen taken
  rw [Reservoirs.whenRoom]
  split_ifs
  · exact passes chosen taken
  · exact ⟨taken, List.prefix_refl _⟩

theorem passes_perToken (perTokenLimit : Nat) {ranked : List (RankedDoc queryCount K)}
    (inside : ∀ doc ∈ ranked, doc ∈ docs) :
    Passes docs docLimit (addPerTokenDocs docLimit perTokenLimit ranked) := by
  have each (qi : Fin queryCount) : Passes docs docLimit (Reservoirs.whenRoom docLimit
      (addAll docLimit ((rankBy (tokenItem qi) (ranked.filter fun doc => doc.entry.seen qi)).take
        perTokenLimit))) := by
    apply Passes.whenRoom
    apply passes_addAll
    intro doc member
    have listed := mem_rankBy (fun _ => rfl) (List.mem_of_mem_take member)
    exact inside doc (List.mem_of_mem_filter listed)
  have run (tokens : List (Fin queryCount)) : Passes docs docLimit fun chosen =>
      tokens.foldl (fun chosen qi => Reservoirs.whenRoom docLimit (addAll docLimit
        ((rankBy (tokenItem qi) (ranked.filter fun doc => doc.entry.seen qi)).take
          perTokenLimit)) chosen) chosen := by
    induction tokens with
    | nil => exact passes_id
    | cons qi tokens ih => exact (each qi).comp ih
  exact run _

/-- **The first pass** takes the first documents. -/
theorem addUntil_take (limit : Nat) {items chosen : List (RankedDoc queryCount K)}
    (distinct : ((chosen ++ items).map RankedDoc.docId).Nodup) (room : chosen.length < docLimit) :
    addUntil docLimit limit items chosen.length chosen =
      chosen ++ items.take (min limit docLimit - chosen.length) := by
  induction items generalizing chosen with
  | nil => rw [List.take_nil, List.append_nil]; rfl
  | cons doc items ih =>
    rw [addUntil]
    by_cases done : limit ≤ chosen.length
    · rw [if_pos done, show min limit docLimit - chosen.length = 0 by omega, List.take_zero,
        List.append_nil]
    · have fresh : doc.docId ∉ chosen.map RankedDoc.docId := by
        intro known
        rw [List.map_append] at distinct
        exact List.disjoint_of_nodup_append distinct known List.mem_cons_self
      have added : addDoc docLimit chosen doc = (chosen ++ [doc], true) := by
        rw [addDoc, if_neg fresh, if_neg (not_le.mpr room)]
      have length : (chosen ++ [doc]).length = chosen.length + 1 := by
        rw [List.length_append, List.length_singleton]
      rw [if_neg done, added]
      dsimp only
      rw [if_pos rfl, length]
      by_cases full : docLimit ≤ chosen.length + 1
      · rw [if_pos full, show min limit docLimit - chosen.length = 1 by omega]
        rfl
      · have next := @ih (chosen ++ [doc])
          (by rwa [List.append_assoc, List.singleton_append]) (by omega)
        rw [if_neg full, ← length, next, length, List.append_assoc, List.singleton_append,
          show min limit docLimit - chosen.length =
            min limit docLimit - (chosen.length + 1) + 1 by omega, List.take_succ_cons]

/-- **The last pass** ends with no room, or with all documents. -/
theorem addUntil_fills {items chosen : List (RankedDoc queryCount K)} {seen : Nat}
    (few : seen ≤ chosen.length) :
    docLimit ≤ (addUntil docLimit docLimit items seen chosen).length ∨
      ∀ doc ∈ chosen ++ items, doc.docId ∈
        (addUntil docLimit docLimit items seen chosen).map RankedDoc.docId := by
  induction items generalizing chosen seen with
  | nil =>
    refine Or.inr fun doc member => ?_
    rw [List.append_nil] at member
    exact List.mem_map_of_mem member
  | cons doc items ih =>
    rw [addUntil]
    by_cases done : docLimit ≤ seen
    · rw [if_pos done]
      exact Or.inl (done.trans few)
    · rw [if_neg done]
      dsimp only
      by_cases full : docLimit ≤ (addDoc docLimit chosen doc).1.length
      · rw [if_pos full]
        exact Or.inl full
      · rw [if_neg full]
        rw [addDoc] at full ⊢
        by_cases known : doc.docId ∈ chosen.map RankedDoc.docId
        · rw [if_pos known] at full ⊢
          refine (ih few).imp id fun all other member => ?_
          rcases List.mem_append.mp member with old | new
          · exact all other (List.mem_append_left _ old)
          · rcases List.mem_cons.mp new with rfl | later
            · obtain ⟨same, inside, ids⟩ := List.mem_map.mp known
              rw [← ids]
              exact all same (List.mem_append_left _ inside)
            · exact all other (List.mem_append_right _ later)
        · rw [if_neg known] at full ⊢
          by_cases tight : docLimit ≤ chosen.length
          · rw [if_pos tight] at full
            exact absurd tight full
          · rw [if_neg tight] at full ⊢
            dsimp only
            have more : seen + 1 ≤ (chosen ++ [doc]).length := by
              rw [List.length_append, List.length_singleton]
              omega
            have next := ih more
            rw [List.append_assoc, List.singleton_append] at next
            exact next

end Passes

/-! ### The documents that are taken -/

section Build

variable {settings : ReservoirSettings} {docs : List (RankedDoc queryCount K)}

/-- **What the reservoirs take**: different documents, as many as there is room for, with the best
by score in front. -/
structure Fills (settings : ReservoirSettings) (docs chosen : List (RankedDoc queryCount K)) :
    Prop where
  distinct : (chosen.map RankedDoc.docId).Nodup
  part : ∀ doc ∈ chosen, doc ∈ docs
  count : chosen.length = min settings.docLimit docs.length
  ranked : (sortDocs docs).Perm docs ∧
    (sortDocs docs).Pairwise fun a b => b.entry.score ≤ a.entry.score
  best : (sortDocs docs).take (min (settings.share queryCount) settings.docLimit) <+: chosen

theorem sortDocs_score (docs : List (RankedDoc queryCount K)) :
    (sortDocs docs).Pairwise fun a b => b.entry.score ≤ a.entry.score := by
  refine (sortDocs_pairwise docs).imp fun below => ?_
  rcases Prod.Lex.toLex_le_toLex.mp below with less | same
  · exact (OrderDual.toDual_lt_toDual.mp less).le
  · exact (OrderDual.toDual_inj.mp same.1).ge

theorem passes_middle (settings : ReservoirSettings) (docs : List (RankedDoc queryCount K)) :
    Passes docs settings.docLimit fun chosen =>
      whenRoom settings.docLimit
        (addUntil settings.docLimit settings.coverageLimit (rankBy meanItem (sortDocs docs)) 0)
        (whenRoom settings.docLimit
          (addUntil settings.docLimit settings.coverageLimit
            (rankBy coverageItem (sortDocs docs)) 0)
          (whenRoom settings.docLimit
            (addPerTokenDocs settings.docLimit settings.perTokenLimit (sortDocs docs))
            chosen)) := by
  have listed (doc : RankedDoc queryCount K) (member : doc ∈ sortDocs docs) : doc ∈ docs :=
    (sortDocs_perm docs).mem_iff.mp member
  have tokens : Passes docs settings.docLimit (whenRoom settings.docLimit
      (addPerTokenDocs settings.docLimit settings.perTokenLimit (sortDocs docs))) := by
    apply Passes.whenRoom
    exact passes_perToken settings.perTokenLimit listed
  have coverage : Passes docs settings.docLimit (whenRoom settings.docLimit
      (addUntil settings.docLimit settings.coverageLimit
        (rankBy coverageItem (sortDocs docs)) 0)) := by
    apply Passes.whenRoom
    apply passes_addUntil
    exact fun doc member => listed doc (mem_rankBy (fun _ => rfl) member)
  have mean : Passes docs settings.docLimit (whenRoom settings.docLimit
      (addUntil settings.docLimit settings.coverageLimit
        (rankBy meanItem (sortDocs docs)) 0)) := by
    apply Passes.whenRoom
    apply passes_addUntil
    exact fun doc member => listed doc (mem_rankBy (fun _ => rfl) member)
  exact (tokens.comp coverage).comp mean

/-- **The selection.** -/
theorem buildReservoir_spec (settings : ReservoirSettings)
    (distinct : (docs.map RankedDoc.docId).Nodup) :
    Fills settings docs (buildReservoir settings docs) := by
  have ranked := And.intro (sortDocs_perm docs) (sortDocs_score docs)
  by_cases idle : docs = [] ∨ settings.docLimit = 0
  · have none_ : buildReservoir settings docs = [] := by
      rw [buildReservoir]
      dsimp only
      rw [if_pos idle]
    rw [none_]
    refine ⟨List.nodup_nil, fun _ member => absurd member List.not_mem_nil, ?_, ranked, ?_⟩
    · rcases idle with rfl | zero
      · simp
      · simp [zero]
    · rcases idle with rfl | zero
      · simp [sortDocs]
      · simp [zero]
  · obtain ⟨some_, room⟩ := not_or.mp idle
    have positive : 0 < settings.docLimit := Nat.pos_of_ne_zero room
    have ids : ((sortDocs docs).map RankedDoc.docId).Nodup :=
      ((sortDocs_perm docs).map _).nodup_iff.mpr distinct
    have first := @addUntil_take _ _ _ _ _ settings.docLimit (settings.share queryCount)
      (sortDocs docs) [] ids positive
    rw [List.nil_append, List.length_nil, Nat.sub_zero] at first
    have build : buildReservoir settings docs = whenRoom settings.docLimit
        (addUntil settings.docLimit settings.docLimit (sortDocs docs) 0)
        (whenRoom settings.docLimit
          (addUntil settings.docLimit settings.coverageLimit (rankBy meanItem (sortDocs docs)) 0)
          (whenRoom settings.docLimit
            (addUntil settings.docLimit settings.coverageLimit
              (rankBy coverageItem (sortDocs docs)) 0)
            (whenRoom settings.docLimit
              (addPerTokenDocs settings.docLimit settings.perTokenLimit (sortDocs docs))
              (addUntil settings.docLimit (settings.share queryCount) (sortDocs docs) 0 [])))) := by
      rw [buildReservoir]
      dsimp only
      rw [if_neg idle]
    have listed (doc : RankedDoc queryCount K) (member : doc ∈ sortDocs docs) : doc ∈ docs :=
      (sortDocs_perm docs).mem_iff.mp member
    have started : Taken docs settings.docLimit ([] : List (RankedDoc queryCount K)) :=
      ⟨List.nodup_nil, fun _ member => absurd member List.not_mem_nil, Nat.zero_le _⟩
    obtain ⟨taken, _⟩ := passes_addUntil (settings.share queryCount) listed 0 [] started
    obtain ⟨middle, kept⟩ := passes_middle settings docs _ taken
    dsimp only at middle kept
    rw [build]
    generalize whenRoom settings.docLimit
      (addUntil settings.docLimit settings.coverageLimit (rankBy meanItem (sortDocs docs)) 0) _ =
        chosen at middle kept
    obtain ⟨last, more⟩ :=
      (passes_addUntil settings.docLimit listed 0).whenRoom chosen middle
    rw [first] at kept
    refine ⟨last.distinct, last.part, ?_, ranked, kept.trans more⟩
    have within : (whenRoom settings.docLimit
        (addUntil settings.docLimit settings.docLimit (sortDocs docs) 0) chosen).length ≤
          docs.length := by
      have subset := last.distinct.subperm fun docId member => by
        obtain ⟨doc, inside, rfl⟩ := List.mem_map.mp member
        exact List.mem_map_of_mem (last.part doc inside)
      simpa using subset.length_le
    have full : settings.docLimit ≤ (whenRoom settings.docLimit
        (addUntil settings.docLimit settings.docLimit (sortDocs docs) 0) chosen).length ∨
          docs.length ≤ (whenRoom settings.docLimit
            (addUntil settings.docLimit settings.docLimit (sortDocs docs) 0) chosen).length := by
      rw [whenRoom]
      split_ifs with open_
      · rcases @addUntil_fills _ _ _ _ _ settings.docLimit (sortDocs docs) chosen 0
          (Nat.zero_le _) with enough | all
        · exact Or.inl enough
        · have subset := distinct.subperm fun docId member => by
            obtain ⟨doc, inside, rfl⟩ := List.mem_map.mp member
            exact all doc (List.mem_append_right _ ((sortDocs_perm docs).mem_iff.mpr inside))
          refine Or.inr ?_
          simpa using subset.length_le
      · exact Or.inl (not_lt.mp open_)
    have room := last.room
    omega

/-- **The order of the table** makes no difference. -/
theorem buildReservoir_perm (settings : ReservoirSettings)
    (distinct : (docs.map RankedDoc.docId).Nodup) {docs' : List (RankedDoc queryCount K)}
    (same : docs.Perm docs') : buildReservoir settings docs = buildReservoir settings docs' := by
  have empty : docs = [] ↔ docs' = [] := by
    rw [← List.length_eq_zero_iff, same.length_eq, List.length_eq_zero_iff]
  rw [buildReservoir, buildReservoir]
  dsimp only
  rw [sortDocs_eq distinct same]
  simp only [empty]

/-- The settings that can be made, for a query with so many tokens. -/
def Admitted (settings : ReservoirSettings) (queryCount : Nat) : Prop :=
  settings.docLimit ≤ docCandidateK ∧ queryCount ≤ maxQueryVectors

theorem share_eq {queryCount : Nat} (admitted : Admitted settings queryCount) :
    settings.share queryCount =
      exactShare settings.mode settings.docLimit settings.coverageLimit settings.perTokenLimit
        queryCount := by
  have coverage : settings.coverageLimit ≤ settings.docLimit := min_le_right _ _
  have perToken : settings.perTokenLimit ≤ settings.docLimit := min_le_right _ _
  rw [ReservoirSettings.share, scoreLimit_eq _ admitted.1 admitted.2 coverage perToken,
    Int.toNat_natCast]

/-- **The share of the score** is half of the room, rounded down when half is what it is. -/
theorem share_half {queryCount : Nat} (admitted : Admitted settings queryCount)
    (positive : 0 < settings.docLimit) :
    settings.docLimit / 2 ≤ settings.share queryCount ∧ 0 < settings.share queryCount ∧
      settings.share queryCount ≤ settings.docLimit ∧
      (settings.mode = .conservative → settings.docLimit ≤ 2 * settings.share queryCount) := by
  rw [share_eq admitted]
  generalize settings.mode = mode
  cases mode with
  | balanced =>
    rw [exactShare]
    refine ⟨by omega, by omega, by omega, fun wrong => ?_⟩
    cases wrong
  | conservative =>
    rw [exactShare]
    exact ⟨by omega, by omega, by omega, fun _ => by omega⟩

end Build

/-! ### The documents of the table -/

section Table

variable {table : Nat → Option (DocEntry queryCount K)} {docs : List (RankedDoc queryCount K)}

structure HashScan (table : Nat → Option (DocEntry queryCount K))
    (docs : List (RankedDoc queryCount K)) : Prop where
  distinct : (docs.map RankedDoc.docId).Nodup
  entries : ∀ doc, doc ∈ docs ↔ table doc.docId = some doc.entry

theorem HashScan.perm {docs' : List (RankedDoc queryCount K)} (scan : HashScan table docs)
    (scan' : HashScan table docs') : docs.Perm docs' := by
  refine (List.perm_ext_iff_of_nodup scan.distinct.of_map scan'.distinct.of_map).mpr fun doc => ?_
  rw [scan.entries, scan'.entries]

end Table

/-! ### The proxy candidates -/

def SameDocument (one other : Candidate K) : Prop :=
  (one.docId ≠ none ∧ other.docId ≠ none ∧ one.docId = other.docId) ∨
    (one.heaptid.offset ≠ 0 ∧ other.heaptid.offset ≠ 0 ∧ one.heaptid = other.heaptid)

instance (one other : Candidate K) : Decidable (SameDocument one other) := by
  unfold SameDocument
  infer_instance

/-- `ProxyReservoirAddCandidate`: the selected candidates are kept with their indices. -/
def addCandidate (candidates : List (Candidate K)) (selectedLimit : Int)
    (selected : List (Candidate K × Nat)) (index : Int) : List (Candidate K × Nat) :=
  if index < 0 ∨ selectedLimit ≤ selected.length then selected
  else
    match candidates[index.toNat]? with
    | none => selected
    | some candidate =>
      if candidate.docId = none ∧ candidate.heaptid.offset = 0 then selected
      else if ∃ other ∈ selected, SameDocument other.1 candidate then selected
      else selected ++ [(candidate, index.toNat)]

/-- Indices in their order, while fewer have been selected. -/
def selectWhile (limit : Int) (add : List (Candidate K × Nat) → Int → List (Candidate K × Nat))
    (indices : List Int) (selected : List (Candidate K × Nat)) : List (Candidate K × Nat) :=
  indices.foldl (fun selected index =>
    if (selected.length : Int) < limit then add selected index else selected) selected

def spreadIndex (candidateCount scoreLimit spreadLimit : Int) (i : Nat) : Int :=
  let index := if spreadLimit ≤ 1 then candidateCount - 1
    else wrap 32 (i * (candidateCount - 1) / (spreadLimit - 1))
  if index < scoreLimit ∧ scoreLimit < candidateCount then
    wrap 32 (scoreLimit +
      wrap 32 (i * (candidateCount - scoreLimit - 1) / max (spreadLimit - 1) 1))
  else index

def proxySelected (mode : ReservoirMode) (rerankLimit : Nat) (candidates : List (Candidate K)) :
    List (Candidate K × Nat) :=
  let limit : Int := min rerankLimit candidates.length
  let scoreLimit := proxyScoreLimit mode limit
  let spreadLimit := wrap 32 (limit - scoreLimit)
  let all := (List.range candidates.length).map Int.ofNat
  let selected := selectWhile scoreLimit (addCandidate candidates limit) all []
  let selected := selectWhile limit (addCandidate candidates limit)
    ((List.range spreadLimit.toNat).map (spreadIndex candidates.length scoreLimit spreadLimit))
    selected
  selectWhile limit (fun selected index =>
    if index.toNat ∈ selected.map Prod.snd then selected
    else addCandidate candidates limit selected index) all selected

/-- **`ApplyProxyReservoirCandidates`**: the candidates in their new order, and how many have been
selected. -/
def applyProxyReservoir (mode : ReservoirMode) (rerankLimit : Nat)
    (candidates : List (Candidate K)) : List (Candidate K) × Nat :=
  if candidates = [] ∨ rerankLimit = 0 then (candidates, 0)
  else
    let selected := proxySelected mode rerankLimit candidates
    if selected = [] then (candidates, 0)
    else
      (selected.map Prod.fst ++
        (candidates.zipIdx.filter fun entry => entry.2 ∉ selected.map Prod.snd).map Prod.fst,
        selected.length)

section Proxy

variable {candidates : List (Candidate K)} {limit : Nat}

/-- Candidates of the list that were selected, different documents. -/
structure Selected (candidates : List (Candidate K)) (limit : Nat)
    (selected : List (Candidate K × Nat)) : Prop where
  part : ∀ entry ∈ selected, entry ∈ candidates.zipIdx
  known : ∀ entry ∈ selected, SameDocument entry.1 entry.1
  distinct : selected.Pairwise fun one other => ¬SameDocument one.1 other.1
  room : selected.length ≤ limit

theorem Selected.addCandidate {selected : List (Candidate K × Nat)}
    (holds : Selected candidates limit selected) (index : Int) :
    Selected candidates limit (addCandidate candidates limit selected index) := by
  rw [Reservoirs.addCandidate]
  split_ifs with outside
  · exact holds
  · cases found : candidates[index.toNat]? with
    | none => exact holds
    | some candidate =>
      dsimp only
      split_ifs with unknown taken
      · exact holds
      · exact holds
      · have own : SameDocument candidate candidate := by
          rcases not_and_or.mp unknown with id | tid
          · exact Or.inl ⟨id, id, rfl⟩
          · exact Or.inr ⟨tid, tid, rfl⟩
        refine ⟨?_, ?_, ?_, ?_⟩
        · intro entry member
          rcases List.mem_append.mp member with old | new
          · exact holds.part entry old
          · rw [List.mem_singleton.mp new]
            exact List.mem_zipIdx_iff_getElem?.mpr found
        · intro entry member
          rcases List.mem_append.mp member with old | new
          · exact holds.known entry old
          · rw [List.mem_singleton.mp new]
            exact own
        · refine List.pairwise_append.mpr ⟨holds.distinct, List.pairwise_singleton _ _, ?_⟩
          intro one old other new same
          rw [List.mem_singleton.mp new] at same
          exact taken ⟨one, old, same⟩
        · rw [List.length_append, List.length_singleton]
          omega

theorem Selected.selectWhile {stop : Int}
    {add : List (Candidate K × Nat) → Int → List (Candidate K × Nat)}
    (adds : ∀ selected index, Selected candidates limit selected →
      Selected candidates limit (add selected index))
    (indices : List Int) {selected : List (Candidate K × Nat)}
    (holds : Selected candidates limit selected) :
    Selected candidates limit (selectWhile stop add indices selected) := by
  induction indices generalizing selected with
  | nil => exact holds
  | cons index indices ih =>
    rw [Reservoirs.selectWhile, List.foldl_cons]
    apply ih
    split_ifs
    · exact adds selected index holds
    · exact holds

/-- **The selected candidates** are different documents of the list. -/
theorem proxySelected_selected (mode : ReservoirMode) (rerankLimit : Nat)
    (candidates : List (Candidate K)) :
    Selected candidates (min rerankLimit candidates.length)
      (proxySelected mode rerankLimit candidates) := by
  have start : Selected candidates (min rerankLimit candidates.length)
      ([] : List (Candidate K × Nat)) :=
    ⟨fun _ member => absurd member List.not_mem_nil, fun _ member => absurd member List.not_mem_nil,
      List.Pairwise.nil, Nat.zero_le _⟩
  have one (selected : List (Candidate K × Nat)) (index : Int)
      (holds : Selected candidates (min rerankLimit candidates.length) selected) :
      Selected candidates (min rerankLimit candidates.length)
        (addCandidate candidates (min (rerankLimit : Int) candidates.length) selected index) := by
    have added := holds.addCandidate index
    rwa [Nat.cast_min] at added
  rw [proxySelected]
  apply Selected.selectWhile
  · intro selected index holds
    split_ifs
    · exact holds
    · exact one selected index holds
  · apply Selected.selectWhile one
    exact Selected.selectWhile one _ start

theorem Selected.perm {selected : List (Candidate K × Nat)}
    (holds : Selected candidates limit selected) :
    (selected.map Prod.fst ++
      (candidates.zipIdx.filter fun entry => entry.2 ∉ selected.map Prod.snd).map Prod.fst).Perm
      candidates := by
  have indexed (one other : Candidate K × Nat) (inside : one ∈ candidates.zipIdx)
      (inside' : other ∈ candidates.zipIdx) (same : one.2 = other.2) : one = other := by
    have found := List.mem_zipIdx_iff_getElem?.mp inside
    rw [same, List.mem_zipIdx_iff_getElem?.mp inside', Option.some_inj] at found
    exact Prod.ext found.symm same
  have entries : candidates.zipIdx.Nodup := by
    refine List.Nodup.of_map Prod.snd ?_
    rw [List.zipIdx_map_snd]
    exact List.nodup_range'
  have fresh : selected.Nodup := by
    refine holds.distinct.imp_of_mem ?_
    rintro one other inside - apart rfl
    exact apart (holds.known one inside)
  have split : (selected ++
      candidates.zipIdx.filter fun entry => entry.2 ∉ selected.map Prod.snd).Perm
      candidates.zipIdx := by
    refine (List.perm_ext_iff_of_nodup (List.nodup_append'.mpr
      ⟨fresh, entries.filter _, ?_⟩) entries).mpr fun entry => ?_
    · intro entry old new
      have apart := of_decide_eq_true (List.mem_filter.mp new).2
      exact apart (List.mem_map_of_mem old)
    · rw [List.mem_append, List.mem_filter]
      constructor
      · rintro (old | ⟨inside, -⟩)
        · exact holds.part entry old
        · exact inside
      · intro inside
        by_cases taken : entry.2 ∈ selected.map Prod.snd
        · obtain ⟨other, old, same⟩ := List.mem_map.mp taken
          exact Or.inl (indexed other entry (holds.part other old) inside same ▸ old)
        · exact Or.inr ⟨inside, decide_eq_true taken⟩
  have whole := split.map Prod.fst
  rwa [List.map_append, List.zipIdx_map_fst] at whole

/-- **The new order** is a permutation that begins with different documents. -/
theorem applyProxyReservoir_spec (mode : ReservoirMode) (rerankLimit : Nat)
    (candidates : List (Candidate K)) :
    (applyProxyReservoir mode rerankLimit candidates).1.Perm candidates ∧
      (applyProxyReservoir mode rerankLimit candidates).2 ≤ min rerankLimit candidates.length ∧
      ((applyProxyReservoir mode rerankLimit candidates).1.take
        (applyProxyReservoir mode rerankLimit candidates).2).Pairwise
          fun one other => ¬SameDocument one other := by
  have holds := proxySelected_selected mode rerankLimit candidates
  rw [applyProxyReservoir]
  dsimp only
  split_ifs with idle none_
  · exact ⟨List.Perm.refl _, Nat.zero_le _, List.Pairwise.nil⟩
  · exact ⟨List.Perm.refl _, Nat.zero_le _, List.Pairwise.nil⟩
  · refine ⟨holds.perm, holds.room, ?_⟩
    have front : ((proxySelected mode rerankLimit candidates).map Prod.fst).length =
        (proxySelected mode rerankLimit candidates).length := List.length_map _
    dsimp only
    rw [← front, List.take_left]
    exact List.pairwise_map.mpr holds.distinct

end Proxy

/-! ### The two selections -/

/-- **The reservoirs** take different documents of the table, as many as there is room for, with the
best by score in front, whatever the order of the table; a proxy list is put into an order that
begins with different documents. -/
theorem reservoirs_select {table : Nat → Option (DocEntry queryCount K)}
    {docs : List (RankedDoc queryCount K)} (settings : ReservoirSettings)
    (admitted : Admitted settings queryCount) (scan : HashScan table docs) :
    Fills settings docs (buildReservoir settings docs) ∧
      (∀ docs', HashScan table docs' →
        buildReservoir settings docs' = buildReservoir settings docs) ∧
      (0 < settings.docLimit →
        scoreLimit settings.mode settings.docLimit settings.coverageLimit settings.coverageLimit
            settings.perTokenLimit queryCount =
          exactShare settings.mode settings.docLimit settings.coverageLimit settings.perTokenLimit
            queryCount ∧
        settings.docLimit / 2 ≤ settings.share queryCount ∧ 0 < settings.share queryCount ∧
        settings.share queryCount ≤ settings.docLimit ∧
        (settings.mode = .conservative → settings.docLimit ≤ 2 * settings.share queryCount)) ∧
      ∀ (mode : ReservoirMode) (rerankLimit : Nat) (candidates : List (Candidate K)),
        (rerankLimit ≤ maxExactRerankK →
          proxyScoreLimit mode rerankLimit = exactProxyShare mode rerankLimit) ∧
        (applyProxyReservoir mode rerankLimit candidates).1.Perm candidates ∧
        (applyProxyReservoir mode rerankLimit candidates).2 ≤ min rerankLimit candidates.length ∧
        ((applyProxyReservoir mode rerankLimit candidates).1.take
          (applyProxyReservoir mode rerankLimit candidates).2).Pairwise
            fun one other => ¬SameDocument one other := by
  refine ⟨buildReservoir_spec settings scan.distinct, ?_, ?_, ?_⟩
  · intro docs' scan'
    exact buildReservoir_perm settings scan'.distinct (scan'.perm scan)
  · intro positive
    have coverage : settings.coverageLimit ≤ settings.docLimit := min_le_right _ _
    have perToken : settings.perTokenLimit ≤ settings.docLimit := min_le_right _ _
    exact ⟨scoreLimit_eq _ admitted.1 admitted.2 coverage perToken, share_half admitted positive⟩
  · intro mode rerankLimit candidates
    exact ⟨proxyScoreLimit_eq mode, applyProxyReservoir_spec mode rerankLimit candidates⟩

/-! ### Four documents -/

/-- A document whose tokens have these similarities. -/
def tokenDoc (docId : Nat) (score : ℚ) (maxsim : Fin 2 → Option ℚ) : RankedDoc 2 ℚ where
  docId := docId
  entry :=
    { heaptid := ⟨0, docId + 1⟩, bestNodeId := docId, bestSimilarity := none, score := score
      matchedTokens := (List.finRange 2).countP fun qi => (maxsim qi).isSome
      rawHitCount := 0, duplicateHitCount := 0, maxsim := maxsim
      seen := fun qi => (maxsim qi).isSome }

def fourDocs : List (RankedDoc 2 ℚ) :=
  [tokenDoc 0 10 fun _ => some 5, tokenDoc 1 8 fun _ => some 4,
    tokenDoc 2 7 fun qi => if qi = 0 then some 7 else none,
    tokenDoc 3 6 fun qi => if qi = 0 then none else some 6]

def fourDocsTable (docId : Nat) : Option (DocEntry 2 ℚ) :=
  (fourDocs.find? fun doc => doc.docId = docId).map RankedDoc.entry

/-- Half of three documents by score, and one for every token. -/
def balancedThree : ReservoirSettings := ⟨.balanced, 3, 10, 1⟩

theorem fourDocs_scan : HashScan fourDocsTable fourDocs := by
  have distinct : (fourDocs.map RankedDoc.docId).Nodup := by decide
  refine ⟨distinct, fun doc => ?_⟩
  rw [fourDocsTable, Option.map_eq_some_iff]
  constructor
  · intro member
    refine ⟨doc, ?_, rfl⟩
    cases found : fourDocs.find? fun other => other.docId = doc.docId with
    | none =>
      have all := List.find?_eq_none.mp found doc member
      exact absurd (decide_eq_true rfl) all
    | some other =>
      have same : other.docId = doc.docId := by simpa using List.find?_some found
      have inside := List.mem_of_find?_eq_some found
      rw [List.inj_on_of_nodup_map distinct inside member same]
  · rintro ⟨other, found, same⟩
    have ids : other.docId = doc.docId := by simpa using List.find?_some found
    have inside := List.mem_of_find?_eq_some found
    obtain ⟨otherId, entry⟩ := other
    obtain ⟨docId, entry'⟩ := doc
    cases same
    cases ids
    exact inside

theorem fourDocs_selected :
    Fills balancedThree fourDocs (buildReservoir balancedThree fourDocs) :=
  (reservoirs_select balancedThree ⟨by decide, by decide⟩ fourDocs_scan).1

/-- Of three documents only the best one is taken for its score. -/
theorem second_best_left_out : ¬∃ share, balancedThree.docLimit ≤ 2 * share ∧
    ((sortDocs fourDocs).take share).map RankedDoc.docId ⊆
      (buildReservoir balancedThree fourDocs).map RankedDoc.docId := by
  rintro ⟨share, half, inside⟩
  have chosen : (buildReservoir balancedThree fourDocs).map RankedDoc.docId = [0, 2, 3] := by decide
  have ranked : (sortDocs fourDocs).map RankedDoc.docId = [0, 1, 2, 3] := by decide
  have limit : balancedThree.docLimit = 3 := rfl
  rw [chosen, List.map_take, ranked] at inside
  have second : 1 ∈ [0, 1, 2, 3].take share := by
    obtain ⟨more, rfl⟩ := Nat.exists_eq_add_of_le' (show 2 ≤ share by omega)
    exact List.mem_cons_of_mem _ List.mem_cons_self
  exact absurd (inside second) (by decide)

end TurboHybrid.Reservoirs
