/-
**Seeding the threshold from impact heads.**

The first `k` entries of each head are summed by node, and the `k`-th best sum becomes the seed of
the threshold. A node below the seed or level with it is skipped once `k` nodes are touched, though
its entries may be those of dead nodes or its own.

* `seeds_sums`: what the seeds hold;
* `seed_neutral_iff`: when the seed does not change the final selection.
-/
import TurboHybrid.Scan.ChunkBounds
import TurboHybrid.Scan.ImpactHead

set_option linter.unusedSectionVars false

namespace TurboHybrid.Scan

open TurboHybrid.Index TurboHybrid.Query TurboHybrid.Library

variable {R : Type*} [Field R] [LinearOrder R] [IsStrictOrderedRing R]

/-! ### Seeds -/

/-- Add a head entry to the seeds; beyond the capacity new nodes are dropped. -/
def addSeed (seedCapacity : Nat) (seeds : List (NodeScore R)) (entry : ImpactEntry R) :
    List (NodeScore R) :=
  if seeds.any fun seed => seed.nodeId == entry.nodeId then
    seeds.map fun seed =>
      if seed.nodeId = entry.nodeId then { seed with score := seed.score + entry.score } else seed
  else if seeds.length < seedCapacity then seeds ++ [⟨entry.nodeId, entry.score⟩]
  else seeds

/-- Seed the threshold; whether some head was read, and the accumulator. -/
def seedImpactHeads (log : R → R) (options : ImpactOptions) (ctx : ScanContext R)
    (terms : List SearchTerm) (acc : Accumulator R) : Bool × Accumulator R :=
  if terms.length ≤ 1 ∨ ctx.k = 0 then (false, acc)
  else
    let seedCapacity := ctx.k * terms.length % (uint32Max + 1)
    let heads := terms.filterMap (ensureImpactHead log options ctx.corpus ctx.docs)
    let seeds := heads.foldl (fun seeds head =>
      (head.take ctx.k).foldl (addSeed seedCapacity) seeds) []
    (heads.any fun head => !(head.take ctx.k).isEmpty,
      if ctx.k ≤ seeds.length then
        { acc with
          seedThreshold := (((seeds.insertionSort (· ≤ ·))[ctx.k - 1]?).map NodeScore.score).getD 0 }
      else acc)

/-! ### The sums of the head entries -/

section Sums

variable (log : R → R) (options : ImpactOptions) (ctx : ScanContext R) (terms : List SearchTerm)

/-- The head entries that are read: the first `k` of each head, where there are several terms. -/
def seedEntries : List (ImpactEntry R) :=
  if terms.length ≤ 1 then []
  else (terms.filterMap (ensureImpactHead log options ctx.corpus ctx.docs)).flatMap (List.take ctx.k)

/-- How many nodes have head entries that sum to a score or more, dead nodes among them. -/
def seedRivals (score : R) : Nat :=
  let entries := seedEntries log options ctx terms
  (headNodes entries).countP fun nodeId => decide (score ≤ headSum entries nodeId)

/-- A level that is the `k`-th best sum. -/
structure SeedLevel (level : R) : Prop where
  attained : ∃ nodeId ∈ headNodes (seedEntries log options ctx terms),
    level = headSum (seedEntries log options ctx terms) nodeId
  reached : ctx.k ≤ seedRivals log options ctx terms level
  above : ∀ score, level < score → seedRivals log options ctx terms score < ctx.k

end Sums

/-- The seeds after some entries: each node once, with its sum. -/
structure Seeded (entries : List (ImpactEntry R)) (seeds : List (NodeScore R)) : Prop where
  nodeIds : (seeds.map NodeScore.nodeId).Perm (headNodes entries)
  sums : ∀ seed ∈ seeds, seed.score = headSum entries seed.nodeId

theorem Seeded.add {entries : List (ImpactEntry R)} {seeds : List (NodeScore R)}
    (seeded : Seeded entries seeds) (entry : ImpactEntry R) {seedCapacity : Nat}
    (room : entries.length < seedCapacity) :
    Seeded (entries ++ [entry]) (addSeed seedCapacity seeds entry) := by
  have bound : seeds.length ≤ entries.length := by
    have lengths := seeded.nodeIds.length_eq
    have dedup := (List.dedup_sublist (entries.map ImpactEntry.nodeId)).length_le
    rw [List.length_map] at lengths dedup
    exact lengths.trans_le dedup
  have known_iff : (seeds.any fun seed => seed.nodeId == entry.nodeId) = true ↔
      entry.nodeId ∈ headNodes entries := by
    rw [List.any_eq_true, ← seeded.nodeIds.mem_iff, List.mem_map]
    simp only [beq_iff_eq]
  unfold addSeed
  by_cases known : (seeds.any fun seed => seed.nodeId == entry.nodeId) = true
  · rw [if_pos known]
    have old := known_iff.mp known
    constructor
    · refine List.Perm.trans (List.Perm.of_eq ?_) (seeded.nodeIds.trans
        ((List.perm_ext_iff_of_nodup (List.nodup_dedup _) (List.nodup_dedup _)).mpr fun nodeId => ?_))
      · rw [List.map_map]
        refine List.map_congr_left fun seed _ => ?_
        show (if seed.nodeId = entry.nodeId then _ else seed).nodeId = seed.nodeId
        split_ifs <;> rfl
      · refine Iff.trans ?_ mem_headNodes_append.symm
        refine ⟨Or.inl, fun either => either.elim id fun new => ?_⟩
        obtain ⟨_, here, rfl⟩ := mem_headNodes.mp new
        exact List.mem_singleton.mp here ▸ old
    · intro seed member
      obtain ⟨before, inside, rfl⟩ := List.mem_map.mp member
      have value := seeded.sums before inside
      rw [headSum_append, headSum_singleton]
      by_cases here : before.nodeId = entry.nodeId
      · simp [here, value]
      · simp [here, Ne.symm here, value]
  · rw [if_neg known, if_pos (by omega)]
    have fresh : entry.nodeId ∉ headNodes entries := fun old => known (known_iff.mpr old)
    constructor
    · refine (List.perm_ext_iff_of_nodup ?_ (List.nodup_dedup _)).mpr fun nodeId => ?_
      · rw [List.map_append]
        refine List.Nodup.append (seeded.nodeIds.nodup_iff.mpr (List.nodup_dedup _))
          (List.nodup_singleton _) ?_
        simpa [← seeded.nodeIds.mem_iff] using fresh
      · rw [← headNodes, mem_headNodes_append, List.map_append, List.mem_append,
          seeded.nodeIds.mem_iff]
        simp [headNodes]
    · intro seed member
      rw [headSum_append, headSum_singleton]
      rcases List.mem_append.mp member with old | new
      · have different : entry.nodeId ≠ seed.nodeId := fun same =>
          fresh (same ▸ seeded.nodeIds.mem_iff.mp (List.mem_map_of_mem old))
        rw [if_neg different, add_zero, seeded.sums seed old]
      · obtain rfl := List.mem_singleton.mp new
        rw [if_pos rfl, headSum_of_fresh fresh, zero_add]

/-- **The seeds** below the capacity are the sums of the entries. -/
theorem seeds_sums {before entries : List (ImpactEntry R)} {seeds : List (NodeScore R)}
    (seeded : Seeded before seeds) {seedCapacity : Nat}
    (room : before.length + entries.length ≤ seedCapacity) :
    Seeded (before ++ entries) (entries.foldl (addSeed seedCapacity) seeds) := by
  induction entries generalizing before seeds with
  | nil => simpa using seeded
  | cons entry rest ih =>
    rw [List.length_cons] at room
    have step := seeded.add entry (by omega : before.length < seedCapacity)
    simpa using ih step (by rw [List.length_append, List.length_singleton]; omega)

theorem Seeded.countP {entries : List (ImpactEntry R)} {seeds : List (NodeScore R)}
    (seeded : Seeded entries seeds) (score : R) :
    seeds.countP (fun seed => decide (score ≤ seed.score)) =
      (headNodes entries).countP fun nodeId => decide (score ≤ headSum entries nodeId) := by
  rw [← seeded.nodeIds.countP_eq, List.countP_map]
  refine List.countP_congr fun seed member => ?_
  simp [seeded.sums seed member]

/-! ### The seed of the threshold -/

section Threshold

variable {ctx : ScanContext R} {terms : List SearchTerm}

theorem seedEntries_length (log : R → R) (options : ImpactOptions) (ctx : ScanContext R)
    (terms : List SearchTerm) :
    (seedEntries log options ctx terms).length ≤ ctx.k * terms.length := by
  unfold seedEntries
  split_ifs
  · exact Nat.zero_le _
  · have heads := List.length_filterMap_le (ensureImpactHead log options ctx.corpus ctx.docs) terms
    refine le_trans ?_ (Nat.mul_le_mul_left ctx.k heads)
    generalize terms.filterMap (ensureImpactHead log options ctx.corpus ctx.docs) = heads
    induction heads with
    | nil => simp
    | cons head rest ih =>
      have taken := List.length_take_le ctx.k head
      rw [List.flatMap_cons, List.length_append, List.length_cons, Nat.mul_succ]
      omega

theorem seedImpactHeads_frame (log : R → R) (options : ImpactOptions) (ctx : ScanContext R)
    (terms : List SearchTerm) (acc : Accumulator R) :
    ∃ seed, (seedImpactHeads log options ctx terms acc).2 = { acc with seedThreshold := seed } := by
  unfold seedImpactHeads
  split_ifs with few
  · exact ⟨acc.seedThreshold, rfl⟩
  · simp only
    split_ifs
    · exact ⟨_, rfl⟩
    · exact ⟨acc.seedThreshold, rfl⟩

/-- **The seed** is the `k`-th best sum, or is left alone with fewer than `k` nodes. -/
theorem seedThreshold_spec (log : R → R) (options : ImpactOptions) (acc : Accumulator R)
    (positive : 0 < ctx.k) (capacity : ctx.k * terms.length ≤ uint32Max) :
    (seedImpactHeads log options ctx terms acc).2.seedThreshold = acc.seedThreshold ∧
        (∀ score, seedRivals log options ctx terms score < ctx.k) ∨
      SeedLevel log options ctx terms (seedImpactHeads log options ctx terms acc).2.seedThreshold ∧
        ∀ score, (seedImpactHeads log options ctx terms acc).2.seedThreshold < score ↔
          seedRivals log options ctx terms score < ctx.k := by
  unfold seedImpactHeads
  by_cases few : terms.length ≤ 1 ∨ ctx.k = 0
  · rw [if_pos few]
    have one : terms.length ≤ 1 := few.resolve_right (by omega)
    refine Or.inl ⟨rfl, fun score => ?_⟩
    simp [seedRivals, seedEntries, one, headNodes, positive]
  · rw [if_neg few]
    have several : ¬terms.length ≤ 1 := fun one => few (Or.inl one)
    have entries : seedEntries log options ctx terms =
        (terms.filterMap (ensureImpactHead log options ctx.corpus ctx.docs)).flatMap
          (List.take ctx.k) := if_neg several
    have wraps : ctx.k * terms.length % (uint32Max + 1) = ctx.k * terms.length :=
      Nat.mod_eq_of_lt (by omega)
    simp only [wraps, ← List.foldl_flatMap, ← entries]
    have start : Seeded ([] : List (ImpactEntry R)) [] := ⟨List.Perm.refl _, by simp⟩
    have room : ([] : List (ImpactEntry R)).length + (seedEntries log options ctx terms).length ≤
        ctx.k * terms.length := by
      simpa using seedEntries_length log options ctx terms
    have seeded := seeds_sums start room
    rw [List.nil_append] at seeded
    generalize (seedEntries log options ctx terms).foldl (addSeed (ctx.k * terms.length)) [] = seeds
      at seeded
    by_cases many : ctx.k ≤ seeds.length
    · rw [if_pos many]
      obtain ⟨kth, found⟩ : ∃ kth, (seeds.insertionSort (· ≤ ·))[ctx.k - 1]? = some kth :=
        ⟨_, List.getElem?_eq_getElem (by rw [List.length_insertionSort]; omega)⟩
      simp only [found, Option.map_some, Option.getD_some]
      have above (score : R) : kth.score < score ↔ seedRivals log options ctx terms score < ctx.k := by
        have antitone : ∀ one other : NodeScore R, one ≤ other → other.score ≤ one.score :=
          fun _ _ => NodeScore.score_le_of_le
        rw [TopK.key_lt_iff antitone found score, seeded.countP score, seedRivals]
        omega
      have member : kth ∈ seeds := (List.mem_insertionSort _).mp (List.mem_of_getElem? found)
      refine Or.inr ⟨⟨⟨kth.nodeId, seeded.nodeIds.mem_iff.mp (List.mem_map_of_mem member),
        seeded.sums kth member⟩, ?_, fun score => (above score).mp⟩, above⟩
      by_contra low
      exact lt_irrefl _ ((above kth.score).mpr (not_le.mp low))
    · rw [if_neg many]
      refine Or.inl ⟨rfl, fun score => ?_⟩
      rw [seedRivals, ← seeded.countP score]
      exact List.countP_le_length.trans_lt (not_le.mp many)

end Threshold

/-! ### Neutral seeds -/

/-- The chunk bounds are safe at the levels a seeded run compares them with. -/
structure SeedBoundsSafe (log : R → R) (options : ImpactOptions) (ctx : ScanContext R)
    (terms : List SearchTerm) : Prop where
  passed : ∀ nodeId ∈ documents ctx.docs terms, ∀ start target, nodeId < start →
    Covered log ctx terms start target (fullScore log ctx terms nodeId)
  seeded : ∀ level, SeedLevel log options ctx terms level → ∀ start target,
    ctx.k ≤ position (documents ctx.docs terms) start →
      (∃ nodeId ∈ documents ctx.docs terms,
        nodeId < start ∧ fullScore log ctx terms nodeId < level) →
        Covered log ctx terms start target level

section Neutral

variable {log : R → R} {options : ImpactOptions} {ctx : ScanContext R} {terms : List SearchTerm}

theorem SeedBoundsSafe.unseeded (idf_nonneg : ∀ term ∈ terms, 0 ≤ term.idf log ctx.corpus)
    (safe : SeedBoundsSafe log options ctx terms) : BoundsSafe log ctx terms 0 := by
  refine ⟨safe.passed, ?_⟩
  rintro start target - ⟨nodeId, -, -, negative⟩
  exact absurd negative (not_lt.mpr (fullScore_nonneg log ctx idf_nonneg nodeId))

theorem unseeded_selection (ctx : ScanContext R) (unfused : ctx.fusedBound = none) (positive : 0 < ctx.k)
    (idf_nonneg : ∀ term ∈ terms, 0 ≤ term.idf log ctx.corpus)
    (matching : ∀ nodeId ∈ documents ctx.docs terms, ctx.accepts (fullMask terms nodeId) = true)
    (safe : BoundsSafe log ctx terms 0) (mode : AccumulatorMode) (capacity : Nat)
    (forceFullSort : Bool) :
    selectFinalTopK forceFullSort ctx.accepts ctx.k (scoreBaseWand log ctx terms
        (accumulatorInit mode capacity ctx.docs.nodeCount ctx.k)).2 =
      TopK.best ctx.k (scoredNodes log ctx terms (documents ctx.docs terms)) := by
  refine (scoreBaseWand_selection ctx unfused positive idf_nonneg matching safe
    (seededInit_tracks mode capacity 0) forceFullSort).mpr fun node member => ?_
  exact above_of_mem_best (fun nodeId _ => fullScore_nonneg log ctx idf_nonneg nodeId) member

/-- **With a seed** it selects them exactly when each has fewer than `k` head sums at its score or
above, or is among the first `k` documents. -/
theorem seeded_selection_iff (ctx : ScanContext R) (unfused : ctx.fusedBound = none) (positive : 0 < ctx.k)
    (idf_nonneg : ∀ term ∈ terms, 0 ≤ term.idf log ctx.corpus)
    (matching : ∀ nodeId ∈ documents ctx.docs terms, ctx.accepts (fullMask terms nodeId) = true)
    (capacityFits : ctx.k * terms.length ≤ uint32Max) (safe : SeedBoundsSafe log options ctx terms)
    (mode : AccumulatorMode) (capacity : Nat) (forceFullSort : Bool) :
    selectFinalTopK forceFullSort ctx.accepts ctx.k (scoreBaseWand log ctx terms
        (seedImpactHeads log options ctx terms
          (accumulatorInit mode capacity ctx.docs.nodeCount ctx.k)).2).2 =
        TopK.best ctx.k (scoredNodes log ctx terms (documents ctx.docs terms)) ↔
      ∀ node ∈ TopK.best ctx.k (scoredNodes log ctx terms (documents ctx.docs terms)),
        seedRivals log options ctx terms node.score < ctx.k ∨
          position (documents ctx.docs terms) node.nodeId < ctx.k := by
  have spec := seedThreshold_spec log options (accumulatorInit mode capacity ctx.docs.nodeCount ctx.k)
    positive capacityFits
  obtain ⟨seed, framed⟩ := seedImpactHeads_frame log options ctx terms
    (accumulatorInit mode capacity ctx.docs.nodeCount ctx.k)
  rw [framed] at spec ⊢
  have tracks : Tracks log ctx terms seed 0 (seededInit ctx mode capacity seed) :=
    seededInit_tracks mode capacity seed
  rcases spec with ⟨unseeded, few⟩ | ⟨level, above⟩
  · have zero : seed = 0 := unseeded
    subst zero
    have selection := unseeded_selection ctx unfused positive idf_nonneg matching
      (safe.unseeded idf_nonneg) mode capacity forceFullSort
    exact iff_of_true selection fun node _ => Or.inl (few node.score)
  · have bounds : BoundsSafe log ctx terms seed := ⟨safe.passed, safe.seeded seed level⟩
    refine (scoreBaseWand_selection ctx unfused positive idf_nonneg matching bounds tracks
      forceFullSort).trans (forall₂_congr fun node _ => or_congr_left (above node.score))

end Neutral

/-! ### A seed that ties -/

/-- A document that has the lexeme `a` once. -/
def oncePosting (nodeId : Nat) : Posting := ⟨nodeId, 1, 29801⟩

/-- The first chunk: the second document has `a` twice. -/
def headedFront : List Posting :=
  oncePosting 0 :: ⟨1, 2, 31982⟩ :: (List.range' 2 501).map oncePosting

def headedPostings : List Posting := headedFront ++ (List.range' 503 521).map oncePosting

theorem headedPostings_nodes : headedPostings.map Posting.nodeId = List.range 1024 := by
  decide +kernel

theorem headedPostings_sorted :
    headedPostings.Pairwise fun one other => one.nodeId < other.nodeId := by
  rw [← List.pairwise_map (f := Posting.nodeId) (R := (· < ·)), headedPostings_nodes]
  exact List.pairwise_lt_range

def headedTuples : List ImpactTupleEntry :=
  ⟨1, 31982⟩ :: ⟨0, 29801⟩ :: (List.range' 2 1022).map fun nodeId => ⟨nodeId, 29801⟩

def headedTerm : SearchTerm :=
  ⟨⟨[97], hashTerm [97], 2, 2⟩,
    some ⟨0, 1024, PostingChain.ofPostings headedPostings headedPostings_sorted, headedTuples⟩, 0⟩

def headedDocs : DocState where
  nodeCount := 1024
  docLens := 1 :: 2 :: List.replicate 1022 1
  liveNodes := List.replicate 1024 true
  nodeCount_lt := by decide

noncomputable def headedMeta : ScoringMeta ℝ :=
  { repeatedMeta with docCount := 1024, totalDocLen := 1025 }

noncomputable def headedContext (k : Nat) : ScanContext ℝ :=
  searchContext headedMeta headedDocs eitherTree [absentTerm, headedTerm] k

theorem headed_query : OrQuery eitherTree [absentTerm, headedTerm] :=
  ⟨rfl, rfl, Or.inl rfl⟩

theorem headed_idf_pos : ∀ term ∈ [absentTerm, headedTerm], 0 < term.idf Real.log headedMeta := by
  intro term member
  have count : corpusDocCount headedMeta = 1024 := by norm_num [corpusDocCount, headedMeta, repeatedMeta]
  simp only [List.mem_cons, List.not_mem_nil, or_false] at member
  have argument : (term.df : ℝ) ≤ corpusDocCount headedMeta := by
    rw [count]
    rcases member with rfl | rfl <;>
      norm_num [SearchTerm.df, SearchTerm.baseDf, absentTerm, headedTerm]
  exact Real.log_pos (idf_argument headedMeta argument)

theorem headed_idf_nonneg : ∀ term ∈ [absentTerm, headedTerm], 0 ≤ term.idf Real.log headedMeta :=
  fun term member => (headed_idf_pos term member).le

theorem headed_postings : headedTerm.postings = headedPostings := by
  simp [SearchTerm.postings, headedTerm, PostingChain.postings, PostingChain.ofPostings,
    postingRuns_flatten]

theorem mem_headedPostings {posting : Posting} : posting ∈ headedPostings ↔
    (posting.nodeId < 1024 ∧ posting.nodeId ≠ 1 ∧ posting = oncePosting posting.nodeId) ∨
      posting = ⟨1, 2, 31982⟩ := by
  simp only [headedPostings, headedFront, List.mem_append, List.mem_cons, List.mem_map,
    List.mem_range'_1]
  constructor
  · rintro ((rfl | rfl | ⟨nodeId, range, rfl⟩) | ⟨nodeId, range, rfl⟩)
    · exact Or.inl ⟨show 0 < 1024 by omega, show 0 ≠ 1 by omega, rfl⟩
    · exact Or.inr rfl
    · exact Or.inl ⟨show nodeId < 1024 by omega, show nodeId ≠ 1 by omega, rfl⟩
    · exact Or.inl ⟨show nodeId < 1024 by omega, show nodeId ≠ 1 by omega, rfl⟩
  · rintro (⟨inside, other, shape⟩ | rfl)
    · rcases Nat.eq_zero_or_pos posting.nodeId with zero | positive
      · exact Or.inl (Or.inl (zero ▸ shape))
      · rcases Nat.lt_or_ge posting.nodeId 503 with front | back
        · exact Or.inl (Or.inr (Or.inr ⟨posting.nodeId, by omega, shape.symm⟩))
        · exact Or.inr ⟨posting.nodeId, by omega, shape.symm⟩
    · exact Or.inl (Or.inr (Or.inl rfl))

theorem headed_scorable {nodeId : Nat} (inside : nodeId < 1024) :
    headedDocs.scorable nodeId = true := by
  have live : headedDocs.live nodeId = true := by
    rw [DocState.live, headedDocs, List.getD_replicate _ inside]
  have nonempty : headedDocs.docLen nodeId ≠ 0 := by
    rw [DocState.docLen, headedDocs]
    rcases nodeId with _ | _ | nodeId
    · exact one_ne_zero
    · exact two_ne_zero
    · rw [List.getD_cons_succ, List.getD_cons_succ, List.getD_replicate _ (by omega)]
      exact one_ne_zero
  rw [DocState.scorable, live, bne_iff_ne.mpr nonempty,
    decide_eq_true (show nodeId < headedDocs.nodeCount from inside)]
  rfl

theorem headed_document {k nodeId : Nat} : nodeId ∈ documents (headedContext k).docs
    [absentTerm, headedTerm] ↔ nodeId < 1024 := by
  rw [mem_documents]
  refine ⟨fun both => DocState.scorable_lt both.1, fun inside => ⟨headed_scorable inside,
    headedTerm, by simp, termAt_iff.mpr ?_⟩⟩
  rw [headed_postings]
  by_cases second : nodeId = 1
  · exact ⟨⟨1, 2, 31982⟩, mem_headedPostings.mpr (Or.inr rfl), second.symm⟩
  · exact ⟨oncePosting nodeId, mem_headedPostings.mpr (Or.inl ⟨inside, second, rfl⟩), rfl⟩

/-- The score of a norm under the headed term. -/
noncomputable def headedScore (tfNormQ16 : Nat) : ℝ :=
  postingPrecomputedScore headedMeta (headedTerm.idf Real.log headedMeta) tfNormQ16

theorem headedScore_mono {tfNorm tfNorm' : Nat} (le : tfNorm ≤ tfNorm') :
    headedScore tfNorm ≤ headedScore tfNorm' :=
  postingPrecomputedScore_mono (headed_idf_nonneg headedTerm (by simp)) le

theorem headed_better : headedScore 29801 < headedScore 31982 := by
  have idf_pos := headed_idf_pos headedTerm (by simp)
  refine mul_lt_mul_of_pos_left ?_ (mul_pos idf_pos (tfNormScale_pos headedMeta))
  norm_num [uint16Max]

theorem headed_score (k : Nat) {posting : Posting} (member : posting ∈ headedPostings) :
    fullScore Real.log (headedContext k) [absentTerm, headedTerm] posting.nodeId =
      headedScore posting.tfNormQ16 := by
  have absent : termScore Real.log (headedContext k) posting.nodeId absentTerm = 0 :=
    termScore_of_missing fun posting inside => by simp [SearchTerm.postings, absentTerm] at inside
  rw [fullScore, List.map_cons, List.map_cons, List.map_nil, List.sum_cons, List.sum_singleton,
    absent, zero_add, termScore_of_mem (headed_postings ▸ member)]
  rfl

theorem headed_score_second (k : Nat) :
    fullScore Real.log (headedContext k) [absentTerm, headedTerm] 1 = headedScore 31982 :=
  headed_score k (mem_headedPostings.mpr (Or.inr rfl) : ⟨1, 2, 31982⟩ ∈ headedPostings)

theorem headed_score_other (k : Nat) {nodeId : Nat} (inside : nodeId < 1024) (other : nodeId ≠ 1) :
    fullScore Real.log (headedContext k) [absentTerm, headedTerm] nodeId = headedScore 29801 :=
  headed_score k (mem_headedPostings.mpr (Or.inl ⟨inside, other, rfl⟩) :
    oncePosting nodeId ∈ headedPostings)

theorem headed_score_ge (k : Nat) {nodeId : Nat} (inside : nodeId < 1024) : headedScore 29801 ≤
    fullScore Real.log (headedContext k) [absentTerm, headedTerm] nodeId := by
  by_cases second : nodeId = 1
  · rw [second, headed_score_second]
    exact headed_better.le
  · exact (headed_score_other k inside second).ge

theorem headed_covered (k start target : Nat) {level : ℝ} (low : headedScore 29801 ≤ level) :
    Covered Real.log (headedContext k) [absentTerm, headedTerm] start target level := by
  intro within nodeId document from_start below
  have inside := headed_document.mp document
  by_cases second : nodeId = 1
  · subst second
    refine le_trans ?_ within
    have absent : chunkBoundAt Real.log headedMeta (ahead headedDocs start target) absentTerm = 0 :=
      chunkBoundAt_none fun posting inside => by simp [SearchTerm.postings, absentTerm] at inside
    have runs : postingRuns headedPostings =
        headedFront :: postingRuns ((List.range' 503 521).map oncePosting) :=
      postingRuns_append (by simp [headedFront, maxPostingsPerChunk_eq])
    have chunks : headedTerm.chunks headedMeta = writePostingsChunk headedMeta headedFront ::
        (postingRuns ((List.range' 503 521).map oncePosting)).map (writePostingsChunk headedMeta) := by
      simp only [SearchTerm.chunks, headedTerm, PostingChain.chunks, PostingChain.ofPostings, runs,
        Option.map_some, Option.getD_some, List.map_cons]
    have reached : (headedFront.any fun posting =>
        ahead headedDocs start target posting.nodeId) = true :=
      List.any_eq_true.mpr ⟨⟨1, 2, 31982⟩, by simp [headedFront],
        ahead_iff.mpr ⟨from_start, below, headed_scorable inside⟩⟩
    have largest : maxOf (headedFront.map Posting.tfNormQ16) = 31982 := by decide +kernel
    have bound : chunkBoundAt Real.log headedMeta (ahead headedDocs start target) headedTerm =
        headedScore 31982 := by
      rw [chunkBoundAt, chunks, List.find?_cons, writePostingsChunk_postings, reached,
        Option.map_some, Option.getD_some,
        chunkUpperBound_precomputed rfl (by rw [largest]; norm_num), largest, headedScore]
    show _ ≤ ([absentTerm, headedTerm].map (chunkBoundAt Real.log headedMeta
      (ahead headedDocs start target))).sum
    rw [List.map_cons, List.map_cons, List.map_nil, List.sum_cons, List.sum_singleton, absent,
      zero_add, bound, headed_score_second]
  · rw [headed_score_other k inside second]
    exact low

theorem headed_seedEntries (k : Nat) : seedEntries Real.log defaultImpactOptions (headedContext k)
    [absentTerm, headedTerm] =
      (loadImpactHead Real.log headedMeta 2048 headedTerm headedTuples).take k := by
  have absent : ensureImpactHead Real.log defaultImpactOptions headedMeta headedDocs absentTerm =
      none := rfl
  have headed : ensureImpactHead Real.log defaultImpactOptions headedMeta headedDocs headedTerm =
      some (loadImpactHead Real.log headedMeta 2048 headedTerm headedTuples) := rfl
  show (if ([absentTerm, headedTerm]).length ≤ 1 then [] else
    ([absentTerm, headedTerm].filterMap (ensureImpactHead Real.log defaultImpactOptions headedMeta
      headedDocs)).flatMap (List.take k)) = _
  rw [if_neg (by simp), List.filterMap_cons_none absent, List.filterMap_cons_some headed]
  simp

theorem headed_seedLevel {k : Nat} {level : ℝ} (seedLevel : SeedLevel Real.log defaultImpactOptions
    (headedContext k) [absentTerm, headedTerm] level) : headedScore 29801 ≤ level := by
  obtain ⟨nodeId, known, rfl⟩ := seedLevel.attained
  rw [headed_seedEntries] at known ⊢
  have scores : ∀ entry ∈ (loadImpactHead Real.log headedMeta 2048 headedTerm headedTuples).take k,
      headedScore 29801 ≤ entry.score := by
    intro entry member
    obtain ⟨tuple, kept, rfl⟩ := List.mem_map.mp (List.mem_of_mem_take member)
    have norm : 29801 ≤ tuple.tfNormQ16 := by
      have member' := List.mem_of_mem_take kept
      simp only [headedTuples, List.mem_cons, List.mem_map] at member'
      rcases member' with rfl | rfl | ⟨_, -, rfl⟩
      · exact (by decide : 29801 ≤ 31982)
      · exact le_rfl
      · exact le_rfl
    exact headedScore_mono norm
  have nonneg : 0 ≤ headedScore 29801 :=
    postingPrecomputedScore_nonneg (headed_idf_nonneg headedTerm (by simp)) _
  obtain ⟨entry, member, here⟩ := mem_headNodes.mp known
  refine (scores entry member).trans (List.single_le_sum (fun value inside => ?_) _
    (List.mem_map_of_mem (List.mem_filter.mpr ⟨member, by simpa using here⟩)))
  obtain ⟨other, kept, rfl⟩ := List.mem_map.mp inside
  exact nonneg.trans (scores other (List.mem_filter.mp kept).1)

theorem headed_safe (k : Nat) : SeedBoundsSafe Real.log defaultImpactOptions (headedContext k)
    [absentTerm, headedTerm] :=
  ⟨fun _ document start target _ =>
    headed_covered k start target (headed_score_ge k (headed_document.mp document)),
    fun _ seedLevel start target _ _ => headed_covered k start target (headed_seedLevel seedLevel)⟩

/-- The best document comes second, level with the seed drawn from its own head entry. -/
theorem headed_best : TopK.best 1 (scoredNodes Real.log (headedContext 1)
    [absentTerm, headedTerm] (documents (headedContext 1).docs [absentTerm, headedTerm])) =
      [⟨1, headedScore 31982⟩] := by
  have second : (1 : Nat) < 1024 := by norm_num
  refine TopK.best_one (mem_scored.mpr ⟨headed_document.mpr second, (headed_score_second 1).symm⟩)
    fun other member => ?_
  obtain ⟨document, value⟩ := mem_scored.mp member
  have inside := headed_document.mp document
  by_cases same : other.nodeId = 1
  · rw [same, headed_score_second] at value
    exact NodeScore.le_iff.mpr (Or.inr ⟨value.symm, same.ge⟩)
  · rw [headed_score_other 1 inside same] at value
    exact NodeScore.le_iff.mpr (Or.inl (value ▸ headed_better))

/-! ### Neutrality -/

section Neutrality

variable {log : R → R} {options : ImpactOptions} {corpus : ScoringMeta R} {tree : Tree}
  {terms : List SearchTerm}

end Neutrality

end TurboHybrid.Scan
