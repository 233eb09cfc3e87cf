/-
**Which candidates a rerank scores, and where they end up.**

A rerank reads the row of a candidate from the sidecar, or from the tuple at the candidate's line
pointer. An index fetch goes on from there to the visible version of the chain; the rerank does
not, so the candidate of a row that a HOT update moved keeps its approximate score. The final sort
compares the scores of both kinds.

* `rerankFrom_turns`: the turn of every candidate;
* `served_iff_available`: a candidate has its row's exact score exactly when the tuple at its line
  pointer is the visible version, or the sidecar has the row.
-/
import TurboHybrid.MultiVector.AdaptiveRerank

namespace TurboHybrid.Rerank

open TurboHybrid.Library TurboHybrid.MaxSim TurboHybrid.PlainFallback

variable {Row : Type}

namespace RerankScan

variable (scan : RerankScan Row)

/-! ### The turn of a candidate -/

/-- The candidate ends the rerank: its document is in no column. -/
def Stops (candidate : Candidate ℝ) : Prop :=
  candidate.exactScored = false ∧ scan.sidecarDocument candidate = none ∧ ¬scan.PlainColumn

theorem document_stop_iff (candidate : Candidate ℝ) :
    scan.document candidate = .stop ↔
      scan.sidecarDocument candidate = none ∧ ¬scan.PlainColumn := by
  rw [document]
  rcases scan.sidecarDocument candidate with _ | doc
  · simp only [heapDocument, true_and]
    by_cases plain : scan.PlainColumn
    · rw [if_pos plain]
      refine iff_of_false ?_ (not_not.mpr plain)
      rcases scan.fetchRowVersion candidate.heaptid with _ | tuple
      · exact DocumentLookup.noConfusion
      · dsimp only
        rcases scan.desc.getattr scan.index.denseAttno tuple.row with _ | doc
        · exact DocumentLookup.noConfusion
        · exact DocumentLookup.noConfusion
    · rw [if_neg plain]
      exact iff_of_true rfl plain
  · simp

/-- What one turn makes of a candidate, by those before it. -/
structure Turn (earlier : List (Candidate ℝ)) (candidate : Candidate ℝ) (after : Reranked ℝ) :
    Prop where
  kept : candidate.exactScored ∨ (∃ other ∈ earlier, scan.Stops other) ∨
    (∀ doc, scan.document candidate ≠ .found doc) → after = .kept candidate
  scored : candidate.exactScored = false → (∀ other ∈ earlier, ¬scan.Stops other) →
    ∀ doc, scan.document candidate = .found doc → ∃ threshold score,
      StandsFor threshold score ((scan.exactMaxsim doc : Rat) : ℝ) ∧
      after = ⟨scan.rescored candidate score.score, true, score.pruned⟩

variable {scan}

theorem Turn.later {first : Candidate ℝ} (goes : ¬scan.Stops first)
    {earlier : List (Candidate ℝ)} {candidate : Candidate ℝ} {after : Reranked ℝ}
    (turn : scan.Turn earlier candidate after) : scan.Turn (first :: earlier) candidate after := by
  constructor
  · rintro (done | ⟨other, member, stops⟩ | missing)
    · exact turn.kept (Or.inl done)
    · rcases List.mem_cons.mp member with rfl | before
      · exact absurd stops goes
      · exact turn.kept (Or.inr (Or.inl ⟨other, before, stops⟩))
    · exact turn.kept (Or.inr (Or.inr missing))
  · intro fresh go
    exact turn.scored fresh fun other member => go other (List.mem_cons_of_mem _ member)

theorem turn_stopped {earlier : List (Candidate ℝ)} {other : Candidate ℝ} (member : other ∈ earlier)
    (stops : scan.Stops other) (candidate : Candidate ℝ) :
    scan.Turn earlier candidate (.kept candidate) :=
  ⟨fun _ => rfl, fun _ go => absurd stops (go other member)⟩

/-- **The turn of every candidate.** -/
theorem rerankFrom_turns {limit : Nat} {top : TopScores ℝ} {candidates : List (Candidate ℝ)}
    {reranked : List (Reranked ℝ)}
    (run : scan.rerankFrom Real.sqrt limit top candidates = .ok reranked) :
    reranked.length = candidates.length ∧ ∀ i candidate after, candidates[i]? = some candidate →
      reranked[i]? = some after → scan.Turn (candidates.take i) candidate after := by
  induction candidates generalizing top reranked with
  | nil =>
    cases run
    exact ⟨rfl, fun i candidate after here => by simp at here⟩
  | cons first rest ih =>
    have follow {later : List (Reranked ℝ)} {turned : Reranked ℝ} {top' : TopScores ℝ}
        (goes : ¬scan.Stops first) (turn : scan.Turn [] first turned)
        (next : scan.rerankFrom Real.sqrt limit top' rest = .ok later) :
        (turned :: later).length = (first :: rest).length ∧
          ∀ i candidate after, (first :: rest)[i]? = some candidate →
            (turned :: later)[i]? = some after →
            scan.Turn ((first :: rest).take i) candidate after := by
      obtain ⟨lengths, turns⟩ := ih next
      refine ⟨congrArg (· + 1) lengths, fun i candidate after here there => ?_⟩
      rcases i with _ | i
      · rw [List.getElem?_cons_zero, Option.some.injEq] at here there
        exact here ▸ there ▸ turn
      · rw [List.getElem?_cons_succ] at here there
        exact (turns i candidate after here there).later goes
    rw [rerankFrom] at run
    by_cases done : first.exactScored
    · rw [if_pos done] at run
      obtain ⟨later, next, rfl⟩ := map_ok run
      refine follow (fun stops => ?_) ⟨fun _ => rfl, fun fresh => ?_⟩ next
      · exact absurd done (by simp [stops.1])
      · exact absurd done (by simp [fresh])
    · rw [if_neg done] at run
      have goes {lookup : DocumentLookup} (found : scan.document first = lookup)
          (other : lookup ≠ .stop) : ¬scan.Stops first := fun stops =>
        other (found.symm.trans ((scan.document_stop_iff first).mpr stops.2))
      rcases found : scan.document first with doc | _ | _
      · rw [found] at run
        dsimp only at run
        split_ifs at run
        obtain ⟨later, next, rfl⟩ := map_ok run
        refine follow (goes found DocumentLookup.noConfusion) ⟨?_, ?_⟩ next
        · rintro (known | ⟨other, member, -⟩ | missing)
          · exact absurd known done
          · exact absurd member List.not_mem_nil
          · exact absurd found (missing doc)
        · intro _ _ other same
          rw [found] at same
          cases same
          exact ⟨_, _, scan.documentScore_standsFor limit top doc, rfl⟩
      · rw [found] at run
        obtain ⟨later, next, rfl⟩ := map_ok run
        refine follow (goes found DocumentLookup.noConfusion) ⟨fun _ => rfl, ?_⟩ next
        intro _ _ other same
        rw [found] at same
        cases same
      · rw [found] at run
        cases run
        refine ⟨by simp, fun i candidate after here there => ?_⟩
        rw [List.getElem?_map, here, Option.map_some, Option.some.injEq] at there
        subst there
        rcases i with _ | i
        · rw [List.getElem?_cons_zero, Option.some.injEq] at here
          subst here
          refine ⟨fun _ => rfl, fun _ _ doc same => ?_⟩
          rw [found] at same
          cases same
        · apply turn_stopped List.mem_cons_self
          exact ⟨by simpa using done, (scan.document_stop_iff first).mp found⟩

/-! ### The rows of the candidates -/

section Rows

variable (scan)

/-- The document of the row that an index fetch takes the candidate to: the sidecar's copy, where
there is one, else the value of the visible version. -/
def rowDocument (candidate : Candidate ℝ) : Option MultiVector :=
  (scan.indexFetch candidate.heaptid).bind fun tuple =>
    (scan.indexedValue tuple.row).map fun doc => (scan.sidecarDocument candidate).getD doc

/-- The candidate has the exact score of its row; an abandoned one has a bound of it. -/
def Served (candidate : Candidate ℝ) (after : Reranked ℝ) : Prop :=
  ∀ doc, scan.rowDocument candidate = some doc → after.candidate.exactScored ∧
    if after.abandoned then ((scan.exactMaxsim doc : Rat) : ℝ) ≤ -after.candidate.distance
    else after.candidate.distance = -((scan.exactMaxsim doc : Rat) : ℝ)

/-- The visible version of the candidate's row is the tuple at its line pointer. -/
def AtOwnPointer (candidate : Candidate ℝ) : Prop :=
  ∀ tuple, scan.indexFetch candidate.heaptid = some tuple → tuple.tid = candidate.heaptid

/-- **The condition** for a candidate that an index fetch takes to a row with a value: it came with
the exact score, or no candidate before it stops the rerank and it has a document in the sidecar or
the tuple at its line pointer. -/
def Available (earlier : List (Candidate ℝ)) (candidate : Candidate ℝ) : Prop :=
  ∀ doc, scan.rowDocument candidate = some doc →
    if candidate.exactScored then candidate.distance = -((scan.exactMaxsim doc : Rat) : ℝ)
    else (∀ other ∈ earlier, ¬scan.Stops other) ∧
      (scan.sidecarDocument candidate = none → scan.PlainColumn ∧ scan.AtOwnPointer candidate)

end Rows

theorem heapDocument_own (plain : scan.PlainColumn) {tid : ItemPointer} {tuple : HeapTuple Row}
    (fetched : scan.indexFetch tid = some tuple) {doc : MultiVector}
    (value : scan.indexedValue tuple.row = some doc) (own : tuple.tid = tid) :
    scan.heapDocument tid = .found doc := by
  have member := List.mem_of_find?_eq_some fetched
  have version : scan.fetchRowVersion tid = some tuple := by
    rcases found : scan.fetchRowVersion tid with _ | other
    · have none_ := List.find?_eq_none.mp found tuple member
      simp [own] at none_
    · have here : other.tid = tid := by simpa using List.find?_some found
      rw [PlainScan.eq_of_tid (List.mem_of_find?_eq_some found) member (here.trans own.symm)]
  rw [PlainScan.indexedValue_plain plain] at value
  rw [heapDocument, if_pos plain, version]
  dsimp only
  rw [value]

theorem own_of_heapDocument {tid : ItemPointer} {tuple : HeapTuple Row}
    (fetched : scan.indexFetch tid = some tuple) {doc : MultiVector}
    (found : scan.heapDocument tid = .found doc) : scan.PlainColumn ∧ tuple.tid = tid := by
  rw [heapDocument] at found
  by_cases plain : scan.PlainColumn
  · rw [if_pos plain] at found
    rcases version : scan.fetchRowVersion tid with _ | other
    · rw [version] at found
      cases found
    · have here : other.tid = tid := by simpa using List.find?_some version
      have root : tuple.root = tid := by simpa using List.find?_some fetched
      have same := PlainScan.eq_of_tid_root (List.mem_of_find?_eq_some version)
        (List.mem_of_find?_eq_some fetched) (here.trans root.symm)
      exact ⟨plain, same ▸ here⟩
  · rw [if_neg plain] at found
    cases found

theorem Turn.served_iff {earlier : List (Candidate ℝ)} {candidate : Candidate ℝ}
    {after : Reranked ℝ} (turn : scan.Turn earlier candidate after) :
    scan.Served candidate after ↔ scan.Available earlier candidate := by
  rw [Served, Available]
  refine forall_congr' fun doc => imp_congr_right fun row => ?_
  by_cases done : candidate.exactScored
  · rw [turn.kept (Or.inl done), if_pos done]
    exact and_iff_right done
  · rw [if_neg done]
    obtain ⟨tuple, fetched, value⟩ := Option.bind_eq_some_iff.mp row
    obtain ⟨own, value, stored⟩ := Option.map_eq_some_iff.mp value
    constructor
    · rintro ⟨scored, -⟩
      have goes : ∀ other ∈ earlier, ¬scan.Stops other := by
        intro other member stops
        rw [turn.kept (Or.inr (Or.inl ⟨other, member, stops⟩))] at scored
        exact done scored
      refine ⟨goes, fun missing => ?_⟩
      by_contra unavailable
      have kept := turn.kept (Or.inr (Or.inr fun found lookup => unavailable ?_))
      · rw [kept] at scored
        exact done scored
      · rw [document, missing] at lookup
        obtain ⟨plain, same⟩ := own_of_heapDocument fetched lookup
        refine ⟨plain, fun other fetched' => ?_⟩
        rw [fetched, Option.some.injEq] at fetched'
        exact fetched' ▸ same
    · rintro ⟨goes, available⟩
      have found : scan.document candidate = .found doc := by
        rw [document]
        rcases sidecar : scan.sidecarDocument candidate with _ | copy
        · rw [sidecar, Option.getD_none] at stored
          obtain ⟨plain, same⟩ := available sidecar
          exact stored ▸ heapDocument_own plain fetched value (same tuple fetched)
        · rw [sidecar, Option.getD_some] at stored
          rw [stored]
      obtain ⟨threshold, score, stands, rfl⟩ := turn.scored (by simpa using done) goes doc found
      refine ⟨rfl, ?_⟩
      rw [StandsFor] at stands
      show if score.pruned then _ ≤ - -score.score else -score.score = _
      split_ifs at stands ⊢ with pruned
      · rw [neg_neg]
        exact stands.1
      · rw [stands]

end RerankScan

/-- The rerank of the one row that a HOT update moved. -/
def updatedRerank : RerankScan Unit where
  toPlainScan := updatedScan
  exactRerank := .adaptive
  exactRerankK := 100
  graphFinalK := 0
  tupleTargetRows := none
  limitOverride := 1
  sidecar := none

def updatedCandidate : Candidate ℝ := ⟨⟨0, 1⟩, 0, none, 0, 0, false⟩

theorem updatedRerank_run :
    updatedRerank.exactHeapRerank Real.sqrt [updatedCandidate] = .ok [.kept updatedCandidate] :=
  rfl

def ExactFirst (results : List (Candidate ℝ)) : Prop :=
  results.Pairwise fun one other => other.exactScored → one.exactScored

namespace RerankScan

theorem candidateHeapSort_sorted (candidates : List (Candidate ℝ)) :
    (candidateHeapSort candidates).Pairwise fun one other => one.key ≤ other.key := by
  have sorted := List.pairwise_insertionSort (· ≤ ·) (candidates.map Candidate.key)
  rw [← candidateHeapSort_keys] at sorted
  exact List.pairwise_map.mp sorted

theorem finalSort_perm (reranked : List (Reranked ℝ)) :
    (finalSort reranked).Perm (reranked.map Reranked.candidate) := by
  rw [finalSort]
  split_ifs
  · exact List.perm_insertionSort _ _
  · exact List.Perm.refl _

theorem finalSort_sorted {reranked : List (Reranked ℝ)}
    (some_ : 0 < reranked.countP Reranked.rescored) :
    (finalSort reranked).Pairwise fun one other => one.key ≤ other.key := by
  rw [finalSort]
  split_ifs with sorted
  · exact candidateHeapSort_sorted _
  · have few : reranked.length ≤ 1 := not_lt.mp fun many => sorted ⟨some_, many⟩
    rcases reranked with _ | ⟨one, _ | ⟨other, rest⟩⟩
    · exact List.Pairwise.nil
    · exact List.pairwise_singleton _ _
    · simp at few

theorem finalSort_behind {reranked : List (Reranked ℝ)}
    (some_ : 0 < reranked.countP Reranked.rescored) (first : ExactFirst (finalSort reranked))
    {one other : Candidate ℝ} (member : one ∈ reranked.map Reranked.candidate)
    (member' : other ∈ reranked.map Reranked.candidate) (exact_ : one.exactScored)
    (rough : ¬other.exactScored) : one.key ≤ other.key := by
  have same := finalSort_perm reranked
  obtain ⟨i, inside, rfl⟩ := List.mem_iff_getElem.mp (same.mem_iff.mpr member)
  obtain ⟨j, inside', rfl⟩ := List.mem_iff_getElem.mp (same.mem_iff.mpr member')
  rcases lt_trichotomy i j with before | rfl | after
  · exact List.pairwise_iff_getElem.mp (finalSort_sorted some_) i j inside inside' before
  · exact absurd exact_ rough
  · exact absurd (List.pairwise_iff_getElem.mp first j i inside' inside after exact_) rough

theorem finalSort_first {reranked : List (Reranked ℝ)}
    (some_ : 0 < reranked.countP Reranked.rescored)
    (ahead : ∀ one ∈ reranked.map Reranked.candidate, ∀ other ∈ reranked.map Reranked.candidate,
      one.exactScored → ¬other.exactScored → one.key < other.key) :
    ExactFirst (finalSort reranked) := by
  have same := finalSort_perm reranked
  refine (finalSort_sorted some_).imp_of_mem fun {one other} member member' before exact_ => ?_
  by_contra rough
  exact (ahead other (same.mem_iff.mp member') one (same.mem_iff.mp member) exact_ rough).not_ge
    before

/-- **The delivered list**: the reranked candidates in the order of the one distance that each has,
then of line pointer and node. -/
structure Delivered (reranked : List (Reranked ℝ)) (results : List (Candidate ℝ)) : Prop where
  same : results.Perm (reranked.map Reranked.candidate)
  untouched : reranked.countP Reranked.rescored = 0 → results = reranked.map Reranked.candidate
  ordered : 0 < reranked.countP Reranked.rescored →
    results.Pairwise fun one other => one.key ≤ other.key
  first : 0 < reranked.countP Reranked.rescored →
    (∀ one ∈ results, ∀ other ∈ results, one.exactScored → ¬other.exactScored →
      one.key < other.key) → ExactFirst results
  behind : 0 < reranked.countP Reranked.rescored → ExactFirst results →
    ∀ one ∈ results, ∀ other ∈ results, one.exactScored → ¬other.exactScored →
      one.key ≤ other.key

end RerankScan

def shortTuples : List (HeapTuple Unit) := [⟨⟨0, 1⟩, ⟨0, 1⟩, ()⟩, ⟨⟨0, 2⟩, ⟨0, 2⟩, ()⟩]

theorem shortTuples_distinct : (shortTuples.map HeapTuple.tid).Nodup := by decide

theorem shortTuples_rooted : ∀ tuple ∈ shortTuples, ∀ other ∈ shortTuples,
    tuple.tid = other.root → tuple.root = tuple.tid := by decide

theorem shortTuples_single : ∀ tuple ∈ shortTuples, ∀ other ∈ shortTuples,
    true = true → true = true → tuple.root = other.root → tuple = other := by
  simp [shortTuples]

def shortTable : HeapRelation Unit := ⟨shortTuples, shortTuples_distinct, shortTuples_rooted⟩

def shortRerank : RerankScan Unit where
  desc := updatedScan.desc
  index := updatedScan.index
  heap := shortTable
  snapshot := ⟨fun _ => true, shortTuples_single⟩
  query := updatedScan.query
  queryTokens := updatedScan.queryTokens
  queryWeightSum := 1
  targetK := 10
  exactRerank := .adaptive
  exactRerankK := 1
  graphFinalK := 0
  tupleTargetRows := none
  limitOverride := 0
  sidecar := none

def firstRough : Candidate ℝ := ⟨⟨0, 1⟩, 0, none, -12, 12, false⟩

def secondRough : Candidate ℝ := ⟨⟨0, 2⟩, 1, none, -10, 10, false⟩

theorem shortRerank_run : shortRerank.exactHeapRerank Real.sqrt [firstRough, secondRough] =
    .ok [⟨shortRerank.rescored firstRough ((shortRerank.exactMaxsim (oneVector 1) : Rat) : ℝ),
      true, false⟩, .kept secondRough] := rfl

theorem shortRerank_maxsim : shortRerank.exactMaxsim (oneVector 1) = 1 := by
  have full : maxSimWeighted (oneVector 1) (oneVector 1) updatedScan.queryTokens = _ :=
    maxSimWeighted_of_no_weights (oneVector 1) (oneVector 1) rfl rfl
  refine Eq.trans full ?_
  simp [oneVector, bestDot, MaxSim.dotProduct]

end TurboHybrid.Rerank
