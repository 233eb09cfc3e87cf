/-
**The candidates kept of a document's offers.**

The pass over the documents offers a node for each of them, some perhaps more than once. A node that
is known is not offered again to the buffer, and one that was put out comes back no better.

* `worstCandidate_spec`: the buffer's scan finds a farthest candidate;
* `Kept.offer`: one offer keeps the best of the nodes offered so far;
* `documentCandidates_best`: the buffer has the best distinct nodes of any stream of offers.
-/
import TurboHybrid.Graph.InsertShape
import Mathlib.Data.Prod.Lex
import Mathlib.Data.List.Perm.Basic
import Mathlib.Data.List.Dedup
import Mathlib.Data.List.Induction

namespace TurboHybrid.Graph

open Library

section Candidates

variable {D : Type} [LinearOrder D]

theorem frontierLess_iff {one other : D × Nat} :
    frontierLess one other = true ↔ toLex one < toLex other := by
  rw [Prod.Lex.toLex_lt_toLex, frontierLess, decide_eq_true_iff]

/-! ### The farthest candidate -/

theorem worstCandidate_fold (candidates : List (D × Nat)) :
    ∃ visit : Option Nat → Nat → Option Nat,
      worstCandidate candidates = (List.range candidates.length).foldl visit none ∧
      (∀ pos, visit none pos = some pos) ∧
      ∀ chosen pos item farthest, candidates[pos]? = some item →
        candidates[chosen]? = some farthest →
        visit (some chosen) pos = if frontierGreater item farthest then some pos else some chosen :=
  ⟨_, rfl, fun _ => rfl, fun chosen pos item farthest here there => by simp only [here, there]⟩

/-- **The scan finds a farthest candidate.** -/
theorem worstCandidate_spec {candidates : List (D × Nat)} (nonempty : candidates ≠ []) :
    ∃ worst, worstCandidate candidates = some worst ∧ ∃ farthest,
      candidates[worst]? = some farthest ∧
        ∀ item ∈ candidates, toLex item ≤ toLex farthest := by
  obtain ⟨visit, whole, first, later⟩ := worstCandidate_fold candidates
  rw [whole]
  have found (count : Nat) (positive : 0 < count) (inside : count ≤ candidates.length) :
      ∃ worst, (List.range count).foldl visit none = some worst ∧ ∃ farthest,
        candidates[worst]? = some farthest ∧
        ∀ pos item, pos < count → candidates[pos]? = some item → toLex item ≤ toLex farthest := by
    induction count with
    | zero => exact absurd positive (Nat.lt_irrefl 0)
    | succ count ih =>
      have next : candidates[count]? = some candidates[count] :=
        List.getElem?_eq_getElem inside
      rw [List.range_succ, List.foldl_append, List.foldl_cons, List.foldl_nil]
      rcases Nat.eq_zero_or_pos count with rfl | some'
      · refine ⟨0, first 0, candidates[0], next, fun pos item least here => ?_⟩
        obtain rfl : pos = 0 := by omega
        rw [next] at here
        cases here
        exact le_rfl
      · obtain ⟨worst, before, farthest, there, above⟩ := ih some' (by omega)
        rw [before, later worst count _ farthest next there]
        by_cases farther : frontierGreater candidates[count] farthest = true
        · rw [if_pos farther]
          have less : toLex farthest < toLex candidates[count] := frontierLess_iff.mp farther
          refine ⟨count, rfl, candidates[count], next, fun pos item bound here => ?_⟩
          rcases Nat.lt_succ_iff_lt_or_eq.mp bound with earlier | rfl
          · exact (above pos item earlier here).trans less.le
          · rw [next] at here
            cases here
            exact le_rfl
        · rw [if_neg farther]
          refine ⟨worst, rfl, farthest, there, fun pos item bound here => ?_⟩
          rcases Nat.lt_succ_iff_lt_or_eq.mp bound with earlier | rfl
          · exact above pos item earlier here
          · rw [next] at here
            cases here
            exact not_lt.mp fun less => farther (frontierLess_iff.mpr less)
  obtain ⟨worst, scan, farthest, there, above⟩ :=
    found candidates.length (List.length_pos_iff.mpr nonempty) le_rfl
  refine ⟨worst, scan, farthest, there, fun item member => ?_⟩
  obtain ⟨pos, bound, rfl⟩ := List.getElem_of_mem member
  exact above pos _ bound (List.getElem?_eq_getElem bound)

/-! ### The nodes of a stream -/

variable (distance : Nat → D) (dblMax : D) (candidateLimit : Nat)

def offerCandidates (offers : List Nat) : List (D × Nat) :=
  offers.foldl (fun candidates nodeId =>
    documentInsertOfferCandidate dblMax candidateLimit candidates (distance nodeId, nodeId)) []

/-- The different nodes offered that have a distance. -/
def offeredNodes (offers : List Nat) : List Nat :=
  (offers.filter fun nodeId => decide (distance nodeId ≠ dblMax)).dedup

/-- A node with its distance, in the order of the candidates. -/
def candidateOf (nodeId : Nat) : D ×ₗ Nat := toLex (distance nodeId, nodeId)

/-- The buffer holds the best of the nodes seen. -/
structure Kept (seen : List Nat) (candidates : List (D × Nat)) : Prop where
  distinct : seen.Nodup
  selects : TopK.Selects candidateLimit (seen.map (candidateOf distance)) (candidates.map toLex)

variable {distance dblMax candidateLimit} {seen : List Nat} {candidates : List (D × Nat)}

theorem Kept.inside (kept : Kept distance candidateLimit seen candidates) {item : D × Nat}
    (member : item ∈ candidates) : item.2 ∈ seen ∧ item = (distance item.2, item.2) := by
  obtain ⟨rest, split, -⟩ := kept.selects.split
  have known := split.mem_iff.mpr (List.mem_append_left rest (List.mem_map_of_mem member))
  obtain ⟨nodeId, here, same⟩ := List.mem_map.mp known
  have same : (distance nodeId, nodeId) = item := toLex.injective same
  subst same
  exact ⟨here, rfl⟩

theorem Kept.lost (kept : Kept distance candidateLimit seen candidates) {nodeId : Nat}
    (known : nodeId ∈ seen) (out : nodeId ∉ candidates.map Prod.snd) :
    candidates.length = candidateLimit ∧
      ∀ item ∈ candidates, toLex item ≤ candidateOf distance nodeId := by
  obtain ⟨rest, split, below⟩ := kept.selects.split
  have left : candidateOf distance nodeId ∈ rest := by
    refine (List.mem_append.mp (split.mem_iff.mp (List.mem_map_of_mem known))).resolve_left ?_
    intro chosen
    obtain ⟨item, member, same⟩ := List.mem_map.mp chosen
    exact out (List.mem_map.mpr ⟨item, member, congrArg Prod.snd (toLex.injective same)⟩)
  have count := kept.selects.count
  have lengths := split.length_eq
  have some := List.length_pos_of_mem left
  rw [List.length_append] at lengths
  have full : (candidates.map toLex).length = candidateLimit := by omega
  rw [List.length_map] at full
  refine ⟨full, fun item member => ?_⟩
  exact below _ (List.mem_map_of_mem member) _ left

/-- **One offer** keeps the best of the nodes seen, whether the node is new, known or put out. -/
theorem Kept.offer (positive : 0 < candidateLimit)
    (kept : Kept distance candidateLimit seen candidates) {nodeId : Nat}
    (near : distance nodeId ≠ dblMax) :
    Kept distance candidateLimit (if nodeId ∈ seen then seen else seen ++ [nodeId])
      (documentInsertOfferCandidate dblMax candidateLimit candidates (distance nodeId, nodeId)) := by
  unfold documentInsertOfferCandidate
  by_cases listed : nodeId ∈ candidates.map Prod.snd
  · obtain ⟨item, member, same⟩ := List.mem_map.mp listed
    rw [if_pos (same ▸ (kept.inside member).1), if_pos (Or.inr (Or.inr listed))]
    exact kept
  · have offered : ¬(candidateLimit = 0 ∨ distance nodeId = dblMax ∨
        nodeId ∈ candidates.map Prod.snd) :=
      not_or.mpr ⟨positive.ne', not_or.mpr ⟨near, listed⟩⟩
    dsimp only
    rw [if_neg offered]
    have selects := kept.selects
    have bounded : candidates.length ≤ candidateLimit := by
      rw [← List.length_map toLex, selects.count]
      exact min_le_left _ _
    by_cases room : candidates.length < candidateLimit
    · have fresh : nodeId ∉ seen := fun known => room.ne (kept.lost known listed).1
      rw [if_neg fresh, if_pos room]
      refine ⟨List.nodup_append.mpr ⟨kept.distinct, List.nodup_singleton _, ?_⟩, ?_⟩
      · rintro other known _ here rfl
        exact fresh (List.mem_singleton.mp here ▸ known)
      · have pushed := selects.push (by simpa using room) (candidateOf distance nodeId)
        rw [List.map_append, List.map_append]
        exact pushed.of_perm (List.Perm.refl _) (List.perm_append_singleton _ _).symm
    · have nonempty : candidates ≠ [] := by
        rintro rfl
        exact room positive
      obtain ⟨worst, scan, farthest, there, above⟩ := worstCandidate_spec nonempty
      obtain ⟨inside, here⟩ := List.getElem?_eq_some_iff.mp there
      rw [if_neg room]
      simp only [scan, there]
      have perm := List.getElem_cons_eraseIdx_perm inside
      rw [here] at perm
      by_cases better : frontierLess (distance nodeId, nodeId) farthest = true
      · have less : candidateOf distance nodeId < toLex farthest := frontierLess_iff.mp better
        have fresh : nodeId ∉ seen := fun known =>
          absurd ((kept.lost known listed).2 farthest (List.mem_of_getElem? there)) (not_le.mpr less)
        rw [if_neg fresh, if_pos better]
        refine ⟨List.nodup_append.mpr ⟨kept.distinct, List.nodup_singleton _, ?_⟩, ?_⟩
        · rintro other known _ here rfl
          exact fresh (List.mem_singleton.mp here ▸ known)
        · have ordered := selects.of_perm (List.Perm.refl _) (perm.symm.map toLex)
          rw [List.map_cons] at ordered
          have replaced := ordered.replace (fun other member => ?_) less.le ?_
          · rw [List.map_append]
            refine replaced.of_perm (List.Perm.refl _) ?_
            exact ((List.set_perm_cons_eraseIdx inside (distance nodeId, nodeId)).map toLex).symm
          · obtain ⟨item, held, rfl⟩ := List.mem_map.mp member
            exact above item (List.mem_of_mem_eraseIdx held)
          · rw [← List.map_cons, List.length_map, perm.length_eq]
            omega
      · have far : toLex farthest ≤ candidateOf distance nodeId :=
          not_lt.mp fun less => better (frontierLess_iff.mpr less)
        rw [if_neg better]
        by_cases known : nodeId ∈ seen
        · rw [if_pos known]
          exact kept
        · rw [if_neg known]
          refine ⟨List.nodup_append.mpr ⟨kept.distinct, List.nodup_singleton _, ?_⟩, ?_⟩
          · rintro other old _ here rfl
            exact known (List.mem_singleton.mp here ▸ old)
          · rw [List.map_append]
            refine selects.keep (fun other member => ?_) (by rw [List.length_map]; omega)
            obtain ⟨item, held, rfl⟩ := List.mem_map.mp member
            exact (above item held).trans far

/-- **The offers of a stream** leave the best of its nodes. -/
theorem offerCandidates_kept (distance : Nat → D) (dblMax : D) {candidateLimit : Nat}
    (positive : 0 < candidateLimit) (offers : List Nat) :
    ∃ seen, Kept distance candidateLimit seen
        (offerCandidates distance dblMax candidateLimit offers) ∧
      ∀ nodeId, nodeId ∈ seen ↔ nodeId ∈ offers ∧ distance nodeId ≠ dblMax := by
  induction offers using List.reverseRecOn with
  | nil => exact ⟨[], ⟨List.nodup_nil, TopK.selects_nil _⟩, by simp⟩
  | append_singleton offers nodeId ih =>
    obtain ⟨seen, kept, known⟩ := ih
    unfold offerCandidates at kept ⊢
    rw [List.foldl_append]
    by_cases near : distance nodeId = dblMax
    · refine ⟨seen, ?_, fun other => ?_⟩
      · show Kept distance candidateLimit seen (documentInsertOfferCandidate _ _ _ _)
        unfold documentInsertOfferCandidate
        rw [if_pos (Or.inr (Or.inl near))]
        exact kept
      · rw [known, List.mem_append, List.mem_singleton]
        constructor
        · exact fun old => ⟨Or.inl old.1, old.2⟩
        · rintro ⟨old | rfl, far⟩
          · exact ⟨old, far⟩
          · exact absurd near far
    · refine ⟨_, kept.offer positive near, fun other => ?_⟩
      by_cases old : nodeId ∈ seen
      · rw [if_pos old, known, List.mem_append, List.mem_singleton]
        constructor
        · exact fun here => ⟨Or.inl here.1, here.2⟩
        · rintro ⟨here | rfl, far⟩
          · exact ⟨here, far⟩
          · exact (known other).mp old
      · rw [if_neg old, List.mem_append, known, List.mem_append, List.mem_singleton]
        constructor
        · rintro (here | rfl)
          · exact ⟨Or.inl here.1, here.2⟩
          · exact ⟨Or.inr rfl, near⟩
        · rintro ⟨here | rfl, far⟩
          · exact Or.inl ⟨here, far⟩
          · exact Or.inr rfl

theorem offerCandidates_none (distance : Nat → D) (dblMax : D) (offers : List Nat) :
    offerCandidates distance dblMax 0 offers = [] := by
  unfold offerCandidates
  induction offers using List.reverseRecOn with
  | nil => rfl
  | append_singleton offers nodeId ih =>
    rw [List.foldl_append, ih]
    show documentInsertOfferCandidate dblMax 0 [] (distance nodeId, nodeId) = []
    exact if_pos (Or.inl rfl)

/-- **The buffer of a stream** has the best of its different nodes. -/
theorem offerCandidates_best (distance : Nat → D) (dblMax : D) (candidateLimit : Nat)
    (offers : List Nat) :
    ((offerCandidates distance dblMax candidateLimit offers).map toLex).Perm
      (TopK.best candidateLimit
        ((offeredNodes distance dblMax offers).map (candidateOf distance))) := by
  rcases Nat.eq_zero_or_pos candidateLimit with rfl | positive
  · rw [offerCandidates_none]
    exact List.Perm.refl _
  · obtain ⟨seen, kept, known⟩ := offerCandidates_kept distance dblMax positive offers
    have same : seen.Perm (offeredNodes distance dblMax offers) := by
      refine (List.perm_ext_iff_of_nodup kept.distinct (List.nodup_dedup _)).mpr fun nodeId => ?_
      rw [known, List.mem_dedup, List.mem_filter, decide_eq_true_iff]
    rw [← TopK.best_perm (same.map (candidateOf distance))]
    exact kept.selects.perm_best

theorem sortNearest_toLex (items : List (D × Nat)) :
    (sortNearest items).map toLex = (items.map toLex).insertionSort (· ≤ ·) := by
  refine List.map_insertionSort (fun one other : D × Nat => one.1 < other.1 ∨
    one.1 = other.1 ∧ one.2 ≤ other.2) (· ≤ ·) toLex items fun one _ other _ => ?_
  rw [Prod.Lex.toLex_le_toLex]

end Candidates

/-! ### The candidates of a document -/

section Documents

variable {F Doc : Type} [LinearOrder F]

/-- The nodes that the pass offers: first nodes that are stored and alive. -/
def DocumentInsert.offers (new : DocumentInsert F Doc) (index : GraphIndex) : List Nat :=
  new.firstNodeIds.filter fun nodeId => !isUnusable index nodeId

theorem collect_offers (new : DocumentInsert F Doc) (index : GraphIndex) :
    collectDocumentInsertCandidates (new.documentContext index) new.candidateLimit =
      offerCandidates (new.documentInsertNodeDistance index index.page.nodeCount) ⊤
        new.candidateLimit (new.offers index) := by
  unfold collectDocumentInsertCandidates offerCandidates DocumentInsert.offers
  rw [List.foldl_filter]
  refine congrArg (fun step => List.foldl step _ _) ?_
  funext candidates nodeId
  unfold isUnusable DocumentInsert.documentContext
  by_cases outside : index.page.nodeCount ≤ nodeId
  · simp [outside]
  · cases dead : nodeDead index.nodes nodeId <;> simp [outside, dead]

/-- **The candidates for a document** are the best distinct nodes: of any stream of offers, whatever
its order and its repetitions, and of the pass over the documents, which sorts them. -/
theorem documentCandidates_best (new : DocumentInsert F Doc) (index : GraphIndex) :
    (∀ offers : List Nat,
      ((offerCandidates (new.documentInsertNodeDistance index index.page.nodeCount) ⊤
          new.candidateLimit offers).map toLex).Perm
        (TopK.best new.candidateLimit
          ((offeredNodes (new.documentInsertNodeDistance index index.page.nodeCount) ⊤ offers).map
            (candidateOf (new.documentInsertNodeDistance index index.page.nodeCount))))) ∧
      (sortNearest (collectDocumentInsertCandidates (new.documentContext index)
          new.candidateLimit)).map toLex =
        TopK.best new.candidateLimit
          ((offeredNodes (new.documentInsertNodeDistance index index.page.nodeCount) ⊤
            (new.offers index)).map
              (candidateOf (new.documentInsertNodeDistance index index.page.nodeCount))) := by
  have stream := offerCandidates_best (new.documentInsertNodeDistance index index.page.nodeCount) ⊤
    new.candidateLimit
  refine ⟨stream, ?_⟩
  rw [sortNearest_toLex, collect_offers]
  refine ((List.perm_insertionSort _ _).trans (stream (new.offers index))).eq_of_pairwise'
    (List.pairwise_insertionSort _ _) ?_
  exact (List.pairwise_insertionSort _ _).take

end Documents

end TurboHybrid.Graph
