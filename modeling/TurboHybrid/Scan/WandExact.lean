/-
**What the WAND loop keeps.**

Over a run the accumulator holds a skim of the documents before the frontier, each with its full
score and mask. The chunk bounds are safe when the first chunks ahead never sum below a document
they hide.

* `scoreBaseWand_tracks`: what a run under safe bounds leaves;
* `scoreBaseWand_selection`: its final selection is that of a skim.
-/
import TurboHybrid.Scan.WandRun
import TurboHybrid.Scan.Skim

set_option linter.unusedSectionVars false

namespace TurboHybrid.Scan

open TurboHybrid.Index TurboHybrid.Query TurboHybrid.Library

variable {R : Type*} [Field R] [LinearOrder R] [IsStrictOrderedRing R]

/-! ### The threshold -/

theorem WellFormed.threshold_reached {acc : Accumulator R} (wellFormed : WellFormed acc)
    (positive : 0 < acc.topHeapCapacity) (many : acc.topHeapCapacity ≤ acc.touchedCount) :
    acc.topHeapCapacity ≤
      acc.nodeIds.countP fun nodeId => decide (acc.threshold ≤ acc.scoreOf nodeId) := by
  have best := (wellFormed.fullHeap positive many).best
  have inside : acc.topHeap.toList ⊆
      acc.nodeIds.filter fun nodeId => decide (acc.threshold ≤ acc.scoreOf nodeId) := by
    intro nodeId member
    have member' := Array.mem_toList_iff.mp member
    exact List.mem_filter.mpr ⟨wellFormed.inside nodeId member', by simpa using best nodeId member'⟩
  have size := (List.subperm_of_subset wellFormed.heapDistinct inside).length_le
  rw [Array.length_toList, wellFormed.count, min_eq_left many] at size
  rwa [List.countP_eq_length_filter]

theorem kthScore_full {acc : Accumulator R} (wellFormed : WellFormed acc)
    (positive : 0 < acc.topHeapCapacity) (many : acc.topHeapCapacity ≤ acc.touchedCount) :
    kthScore acc acc.topHeapCapacity = max acc.threshold acc.seedThreshold := by
  have size : acc.topHeap.size = acc.topHeapCapacity := by rw [wellFormed.count, min_eq_left many]
  rw [kthScore, if_neg]
  omega

theorem seed_le_kthScore (acc : Accumulator R) (k : Nat) : acc.seedThreshold ≤ kthScore acc k := by
  unfold kthScore
  split_ifs
  · exact le_rfl
  · exact le_max_right _ _

/-! ### Offering documents in node order -/

section Keeps

variable (log : R → R) (ctx : ScanContext R) (terms : List SearchTerm)

/-- The accumulator after documents: it keeps a skim of them, each with its full score and mask. -/
structure Keeps (seed : R) (seen : List Nat) (acc : Accumulator R) : Prop where
  wellFormed : WellFormed acc
  capacity : acc.topHeapCapacity = ctx.k
  seeded : acc.seedThreshold = seed
  fits : acc.Fits ctx.docs.nodeCount
  holds : Holds log ctx terms acc.nodeIds acc
  skimmed : Skimmed (fullScore log ctx terms) ctx.k seed seen acc.nodeIds

/-- A document with its full score and mask is offered to the accumulator. -/
def offer (acc : Accumulator R) (nodeId : Nat) : Accumulator R :=
  if acc.touchedCount < ctx.k ∨ kthScore acc ctx.k < fullScore log ctx terms nodeId then
    addTermScore acc nodeId (fullScore log ctx terms nodeId) (fullMask terms nodeId)
  else acc

end Keeps

theorem length_nodeIds (acc : Accumulator R) : acc.nodeIds.length = acc.touchedCount :=
  List.length_map ..

section Offer

variable {log : R → R} {ctx : ScanContext R} {terms : List SearchTerm} {seed : R} {seen : List Nat}
  {acc : Accumulator R}

/-- With `k` touched a score within the threshold is within the seed or has `k` rivals. -/
theorem Keeps.poor (keeps : Keeps log ctx terms seed seen acc) (positive : 0 < ctx.k)
    (many : ctx.k ≤ acc.touchedCount) {score : R} (low : score ≤ kthScore acc ctx.k) :
    score ≤ seed ∨ ctx.k ≤ acc.nodeIds.countP fun other =>
      decide (score ≤ fullScore log ctx terms other) := by
  have reached := keeps.wellFormed.threshold_reached (keeps.capacity ▸ positive)
    (keeps.capacity ▸ many)
  have full := kthScore_full keeps.wellFormed (keeps.capacity ▸ positive) (keeps.capacity ▸ many)
  rw [keeps.capacity] at reached full
  rw [full, keeps.seeded, le_max_iff] at low
  refine low.symm.imp id fun below => reached.trans (List.countP_mono_left fun other touched le => ?_)
  rw [decide_eq_true_eq, keeps.holds.scores other touched] at le
  simpa using below.trans le

/-- **Offering** the next document. -/
theorem Keeps.offer (keeps : Keeps log ctx terms seed seen acc) (positive : 0 < ctx.k)
    (idf_nonneg : ∀ term ∈ terms, 0 ≤ term.idf log ctx.corpus) {nodeId : Nat}
    (bound : nodeId < ctx.docs.nodeCount) (after : ∀ other ∈ seen, other < nodeId) :
    Keeps log ctx terms seed (seen ++ [nodeId]) (offer log ctx terms acc nodeId) := by
  have fresh : nodeId ∉ acc.nodeIds := fun touched =>
    lt_irrefl _ (after nodeId (keeps.skimmed.sublist.subset touched))
  unfold Scan.offer
  by_cases good : acc.touchedCount < ctx.k ∨ kthScore acc ctx.k < fullScore log ctx terms nodeId
  · rw [if_pos good]
    have entries := addTermScore_entries keeps.fits bound (fullScore log ctx terms nodeId)
      (fullMask terms nodeId)
    have nodeIds : (addTermScore acc nodeId (fullScore log ctx terms nodeId)
        (fullMask terms nodeId)).nodeIds = acc.nodeIds ++ [nodeId] := by
      rw [Accumulator.nodeIds, entries, touchEntry_fresh fresh, List.map_append]
      rfl
    have blank : acc.lookup nodeId = none := by
      simpa using lookup_isSome.not.mpr fresh
    refine ⟨addTermScore_wellFormed keeps.wellFormed nodeId
      (fullScore_nonneg log ctx idf_nonneg nodeId) _, ?_, ?_, addTermScore_fits keeps.fits _ _, ?_, ?_⟩
    · rw [addTermScore, accumulatorUpdate_topHeapCapacity, keeps.capacity]
    · rw [addTermScore, accumulatorUpdate_seedThreshold, keeps.seeded]
    · refine ⟨List.Perm.refl _, addTermScore_distinct keeps.fits bound keeps.holds.distinct _ _,
        fun other member => ?_, fun other member => ?_⟩ <;>
        rw [nodeIds, List.mem_append, List.mem_singleton] at member
      · rw [addTermScore_scoreOf keeps.fits bound]
        rcases member with old | rfl
        · have different : nodeId ≠ other := fun same => fresh (same ▸ old)
          rw [if_neg different, add_zero, keeps.holds.scores other old]
        · rw [if_pos rfl, Accumulator.scoreOf, blank]
          exact zero_add _
      · rw [addTermScore_maskOf keeps.fits bound]
        rcases member with old | rfl
        · have different : nodeId ≠ other := fun same => fresh (same ▸ old)
          rw [if_neg different, Nat.or_zero, keeps.holds.masks other old]
        · rw [if_pos rfl, Accumulator.maskOf, blank]
          exact Nat.zero_or _
    · rw [nodeIds]
      refine keeps.skimmed.keep after (good.imp (fun few => ?_) fun high => ?_)
      · rwa [length_nodeIds]
      · exact (keeps.seeded ▸ seed_le_kthScore acc ctx.k).trans_lt high
  · rw [if_neg good]
    simp only [not_or, not_lt] at good
    refine { keeps with skimmed := keeps.skimmed.pass ?_ ?_ ?_ }
    · exact List.pairwise_append.mpr
        ⟨keeps.skimmed.sorted, List.pairwise_singleton _ _, by simpa using after⟩
    · exact fun _ => good.1.trans_eq (length_nodeIds acc).symm
    · intro other member
      rw [List.mem_singleton.mp member]
      exact keeps.poor positive good.1 good.2

end Offer

/-! ### The invariant of a run -/

section Tracks

variable (log : R → R) (ctx : ScanContext R) (terms : List SearchTerm)

def documentsBelow (start : Nat) : List Nat :=
  (documents ctx.docs terms).filter fun nodeId => decide (nodeId < start)

structure Tracks (seed : R) (start : Nat) (acc : Accumulator R) : Prop where
  wellFormed : WellFormed acc
  capacity : acc.topHeapCapacity = ctx.k
  seeded : acc.seedThreshold = seed
  fits : acc.Fits ctx.docs.nodeCount
  holds : Holds log ctx terms acc.nodeIds acc
  skimmed : Skimmed (fullScore log ctx terms) ctx.k seed (documentsBelow ctx terms start) acc.nodeIds

/-- Where the first chunks ahead stay within a level, so do the documents ahead. -/
def Covered (start target : Nat) (level : R) : Prop :=
  (terms.map (chunkBoundAt log ctx.corpus (ahead ctx.docs start target))).sum ≤ level →
    ∀ nodeId ∈ documents ctx.docs terms, start ≤ nodeId → nodeId < target →
      fullScore log ctx terms nodeId ≤ level

/-- The levels a run compares chunk bounds with: scores of documents passed, and the seed once `k`
documents are passed and one of them is below it. -/
structure BoundsSafe (seed : R) : Prop where
  passed : ∀ nodeId ∈ documents ctx.docs terms, ∀ start target, nodeId < start →
    Covered log ctx terms start target (fullScore log ctx terms nodeId)
  seeded : ∀ start target, ctx.k ≤ position (documents ctx.docs terms) start →
    (∃ nodeId ∈ documents ctx.docs terms, nodeId < start ∧ fullScore log ctx terms nodeId < seed) →
      Covered log ctx terms start target seed

def seededInit (mode : AccumulatorMode) (capacity : Nat) (seed : R) : Accumulator R :=
  { (accumulatorInit mode capacity ctx.docs.nodeCount ctx.k : Accumulator R) with
    seedThreshold := seed }

end Tracks

section Run

variable {log : R → R} {ctx : ScanContext R} {terms : List SearchTerm} {seed : R} {start : Nat}
  {acc : Accumulator R}

theorem mem_documentsBelow {nodeId : Nat} : nodeId ∈ documentsBelow ctx terms start ↔
    nodeId ∈ documents ctx.docs terms ∧ nodeId < start := by
  simp [documentsBelow]

theorem documentsBelow_sorted (ctx : ScanContext R) (terms : List SearchTerm) (start : Nat) :
    (documentsBelow ctx terms start).Pairwise (· < ·) :=
  (documents_sorted ctx.docs terms).filter _

theorem documentsBelow_append {target : Nat} (le : start ≤ target) :
    documentsBelow ctx terms target = documentsBelow ctx terms start ++
      (documents ctx.docs terms).filter fun nodeId =>
        decide (start ≤ nodeId) && decide (nodeId < target) := by
  have sorted := documents_sorted ctx.docs terms
  rw [documentsBelow, documentsBelow]
  generalize documents ctx.docs terms = nodeIds at sorted
  induction nodeIds with
  | nil => rfl
  | cons head rest ih =>
    rw [List.pairwise_cons] at sorted
    have tail := ih sorted.2
    by_cases below : head < start
    · simpa [List.filter_cons, below, below.trans_le le, not_le.mpr below] using tail
    · have none : rest.filter (fun nodeId => decide (nodeId < start)) = [] :=
        List.filter_eq_nil_iff.mpr fun nodeId member => by
          have := sorted.1 nodeId member
          simp
          omega
      rw [none, List.nil_append] at tail
      by_cases near : head < target <;>
        simp [below, near, not_lt.mp below, none, tail]

theorem documentsBelow_of_all (every : ∀ nodeId ∈ documents ctx.docs terms, nodeId < start) :
    documentsBelow ctx terms start = documents ctx.docs terms :=
  List.filter_eq_self.mpr fun nodeId member => by simpa using every nodeId member

theorem documentsBelow_succ {nodeId : Nat} (document : nodeId ∈ documents ctx.docs terms)
    (from_start : start ≤ nodeId)
    (least : ∀ other ∈ documents ctx.docs terms, start ≤ other → nodeId ≤ other) :
    documentsBelow ctx terms (nodeId + 1) = documentsBelow ctx terms start ++ [nodeId] := by
  rw [documentsBelow_append (by omega : start ≤ nodeId + 1)]
  congr 1
  have only : ∀ other ∈ documents ctx.docs terms,
      (decide (start ≤ other) && decide (other < nodeId + 1)) = (other == nodeId) := by
    intro other member
    rw [Bool.eq_iff_iff]
    simp only [Bool.and_eq_true, decide_eq_true_eq, beq_iff_eq]
    constructor
    · rintro ⟨le, less⟩
      have := least other member le
      omega
    · rintro rfl
      omega
  rw [List.filter_congr only, List.filter_beq, List.count_eq_one_of_mem
    (documents_distinct ctx.docs terms) document]
  rfl

theorem seededInit_tracks (mode : AccumulatorMode) (capacity : Nat) (seed : R) :
    Tracks log ctx terms seed 0 (seededInit ctx mode capacity seed) := by
  have init := accumulatorInit_wellFormed (R := R) mode capacity ctx.docs.nodeCount ctx.k
  have none : documentsBelow ctx terms 0 = [] := by simp [documentsBelow]
  refine ⟨⟨init.distinct, init.inside, init.heapDistinct, init.isHeap, init.count, init.outside,
    init.threshold⟩, rfl, rfl, accumulatorInit_fits (R := R) mode capacity _ ctx.k, ?_, ?_⟩
  · refine ⟨List.Perm.refl _, init.distinct, ?_, ?_⟩ <;>
      simp [seededInit, accumulatorInit, Accumulator.nodeIds]
  · rw [none]
    exact Skimmed.nil _ _ _

namespace Tracks

theorem touched_document (tracks : Tracks log ctx terms seed start acc) {nodeId : Nat}
    (touched : nodeId ∈ acc.nodeIds) : nodeId ∈ documents ctx.docs terms ∧ nodeId < start :=
  mem_documentsBelow.mp (tracks.skimmed.sublist.subset touched)

theorem keeps (tracks : Tracks log ctx terms seed start acc) :
    Keeps log ctx terms seed (documentsBelow ctx terms start) acc :=
  ⟨tracks.wellFormed, tracks.capacity, tracks.seeded, tracks.fits, tracks.holds, tracks.skimmed⟩

theorem covered (tracks : Tracks log ctx terms seed start acc) (positive : 0 < ctx.k)
    (many : ctx.k ≤ acc.touchedCount) (safe : BoundsSafe log ctx terms seed) (target : Nat) :
    Covered log ctx terms start target (kthScore acc ctx.k) := by
  have capacity := tracks.capacity
  obtain ⟨root, inHeap, value⟩ := (tracks.wellFormed.fullHeap (capacity ▸ positive)
    (capacity ▸ many)).root
  have touched := tracks.wellFormed.inside root inHeap
  obtain ⟨document, below⟩ := tracks.touched_document touched
  rw [tracks.holds.scores root touched] at value
  have full := kthScore_full tracks.wellFormed (capacity ▸ positive) (capacity ▸ many)
  rw [capacity, tracks.seeded, value] at full
  rw [full]
  rcases le_or_gt seed (fullScore log ctx terms root) with high | low
  · rw [max_eq_left high]
    exact safe.passed root document start target below
  · rw [max_eq_right low.le]
    refine safe.seeded start target ?_ ⟨root, document, below, low⟩
    have lengths := tracks.skimmed.sublist.length_le
    rw [length_nodeIds, documentsBelow, ← List.countP_eq_length_filter] at lengths
    exact many.trans lengths

theorem pass (tracks : Tracks log ctx terms seed start acc) (positive : 0 < ctx.k)
    (safe : BoundsSafe log ctx terms seed) {target : Nat} (le : start ≤ target)
    (many : ctx.k ≤ acc.touchedCount)
    (bounded : (terms.map (chunkBoundAt log ctx.corpus (ahead ctx.docs start target))).sum ≤
      kthScore acc ctx.k) : Tracks log ctx terms seed target acc := by
  refine { tracks with skimmed := ?_ }
  have sorted := documentsBelow_sorted ctx terms target
  rw [documentsBelow_append le] at sorted ⊢
  refine tracks.skimmed.pass sorted (fun _ => many.trans_eq (length_nodeIds acc).symm) ?_
  intro nodeId member
  simp only [List.mem_filter, Bool.and_eq_true, decide_eq_true_eq] at member
  obtain ⟨document, from_start, below⟩ := member
  exact tracks.keeps.poor positive many
    (tracks.covered positive many safe target bounded nodeId document from_start below)

theorem visit (tracks : Tracks log ctx terms seed start acc) (positive : 0 < ctx.k)
    (idf_nonneg : ∀ term ∈ terms, 0 ≤ term.idf log ctx.corpus)
    (matching : ∀ nodeId ∈ documents ctx.docs terms, ctx.accepts (fullMask terms nodeId) = true)
    {nodeId : Nat} (document : nodeId ∈ documents ctx.docs terms) (from_start : start ≤ nodeId)
    (least : ∀ other ∈ documents ctx.docs terms, start ≤ other → nodeId ≤ other) :
    Tracks log ctx terms seed (nodeId + 1) (Scan.visit log ctx terms acc nodeId) := by
  have bound := DocState.scorable_lt (mem_documents.mp document).1
  have offered := tracks.keeps.offer positive idf_nonneg bound fun other member =>
    (mem_documentsBelow.mp member).2.trans_le from_start
  rw [← documentsBelow_succ document from_start least] at offered
  have same : Scan.visit log ctx terms acc nodeId = offer log ctx terms acc nodeId := by
    simp [Scan.visit, offer, matching nodeId document]
  rw [same]
  exact ⟨offered.wellFormed, offered.capacity, offered.seeded, offered.fits, offered.holds,
    offered.skimmed⟩

end Tracks

/-- **What a run leaves**: a skim of the documents, each with its full score and mask. -/
theorem scoreBaseWand_tracks (unfused : ctx.fusedBound = none) (positive : 0 < ctx.k)
    (idf_nonneg : ∀ term ∈ terms, 0 ≤ term.idf log ctx.corpus)
    (matching : ∀ nodeId ∈ documents ctx.docs terms, ctx.accepts (fullMask terms nodeId) = true)
    (safe : BoundsSafe log ctx terms seed) (tracks : Tracks log ctx terms seed 0 acc) :
    ∃ stop, documentsBelow ctx terms stop = documents ctx.docs terms ∧
      Tracks log ctx terms seed stop (scoreBaseWand log ctx terms acc).2 := by
  have run := scoreBaseWand_run unfused idf_nonneg
    (fun start target state next holds (skips : Skips log ctx terms start target state next) =>
      skips.acc ▸ Tracks.pass holds positive safe skips.further.le skips.many skips.bounded)
    (fun start nodeId state next holds (visits : Visits log ctx terms start nodeId state next) =>
      visits.acc ▸ Tracks.visit holds positive idf_nonneg matching visits.document
        visits.from_start visits.least) tracks
  obtain ⟨stop, holds, ⟨rest⟩⟩ := run
  rcases rest with passed | ⟨many, bounded⟩
  · exact ⟨stop, documentsBelow_of_all passed, holds⟩
  · refine ⟨max stop ctx.docs.nodeCount, documentsBelow_of_all fun nodeId document => ?_, ?_⟩
    · exact lt_max_of_lt_right (DocState.scorable_lt (mem_documents.mp document).1)
    · refine holds.pass positive safe (le_max_left _ _) many ?_
      have same : ahead ctx.docs stop (max stop ctx.docs.nodeCount) =
          ahead ctx.docs stop ctx.docs.nodeCount := by
        funext nodeId
        rw [Bool.eq_iff_iff, ahead_iff, ahead_iff]
        refine and_congr_right fun le => and_congr_left fun scorable => ?_
        have := DocState.scorable_lt scorable
        omega
      rwa [same]

/-- **The final selection of a run** is that of a skim of the documents. -/
theorem scoreBaseWand_selection (ctx : ScanContext R) (unfused : ctx.fusedBound = none) (positive : 0 < ctx.k)
    (idf_nonneg : ∀ term ∈ terms, 0 ≤ term.idf log ctx.corpus)
    (matching : ∀ nodeId ∈ documents ctx.docs terms, ctx.accepts (fullMask terms nodeId) = true)
    (safe : BoundsSafe log ctx terms seed) (tracks : Tracks log ctx terms seed 0 acc)
    (forceFullSort : Bool) :
    selectFinalTopK forceFullSort ctx.accepts ctx.k (scoreBaseWand log ctx terms acc).2 =
        TopK.best ctx.k (scoredNodes log ctx terms (documents ctx.docs terms)) ↔
      ∀ node ∈ TopK.best ctx.k (scoredNodes log ctx terms (documents ctx.docs terms)),
        seed < node.score ∨ position (documents ctx.docs terms) node.nodeId < ctx.k := by
  obtain ⟨stop, whole, final⟩ := scoreBaseWand_tracks unfused positive idf_nonneg matching safe tracks
  have skimmed := final.skimmed
  rw [whole] at skimmed
  rw [final.holds.selection (fun nodeId touched => matching nodeId (final.touched_document touched).1)]
  exact skimmed.best_eq_iff

theorem scoreBaseExhaustive_selection (log : R → R) (ctx : ScanContext R)
    (matching : ∀ nodeId ∈ documents ctx.docs terms, ctx.accepts (fullMask terms nodeId) = true)
    (fits : acc.Fits ctx.docs.nodeCount) (empty : acc.entries = []) (forceFullSort : Bool) :
    selectFinalTopK forceFullSort ctx.accepts ctx.k (scoreBaseExhaustive log ctx terms acc) =
      TopK.best ctx.k (scoredNodes log ctx terms (documents ctx.docs terms)) :=
  (exhaustive_holds fits empty).selection matching forceFullSort

end Run

end TurboHybrid.Scan
