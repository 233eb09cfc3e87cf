/-
**Precompaction of matched documents.**

Before the documents that the posting lists matched are scored by their codewords, their number is
cut: to the best by score, or to the union of the best by score, by coverage and of every query
token, of which the best by score are left where they are too many. One bitmap is marked by all of
these, with a counter of the documents marked.

* `precompact_keep_iff`: which documents are kept, each selection by a rule of its own;
* `precompact_perm`: the order in which the documents were matched does not matter;
* `precompact_nonempty`: with a positive limit some document is kept;
* `precompact_right`: these three, and that the order of scoring changes no candidate;
* `zero_limits_empty`: with all limits zero the reservoirs keep no document.
-/
import TurboHybrid.Library.WorstSlot
import TurboHybrid.MultiVector.ScoreBound

set_option linter.unusedSectionVars false

namespace TurboHybrid.Precompact

open TurboHybrid.Library TurboHybrid.ScoreBound
open TurboHybrid.ScoreBound.PostingScan (PostingCandidate postingBetter postingOffer)

/-! ### Orders of documents -/

section Orders

variable {α β : Type} [LinearOrder α] [LinearOrder β] (first : Nat → α) (second : Nat → β)

/-- Documents with larger values first, by two values and then by their number. -/
def docCompare (a b : Nat) : Int :=
  if first b < first a then -1
  else if first a < first b then 1
  else if second b < second a then -1
  else if second a < second b then 1
  else if a < b then -1
  else if b < a then 1
  else 0

def docKey (docId : Nat) : αᵒᵈ ×ₗ βᵒᵈ ×ₗ Nat :=
  toLex (OrderDual.toDual (first docId), toLex (OrderDual.toDual (second docId), docId))

def sortDocs (docs : List Nat) : List Nat :=
  docs.insertionSort fun a b => docCompare first second a b ≤ 0

theorem docCompare_le (a b : Nat) :
    docCompare first second a b ≤ 0 ↔ docKey first second a ≤ docKey first second b := by
  rw [docKey, docKey, Prod.Lex.toLex_le_toLex, Prod.Lex.toLex_le_toLex,
    OrderDual.toDual_lt_toDual, OrderDual.toDual_lt_toDual, OrderDual.toDual_inj,
    OrderDual.toDual_inj, docCompare]
  rcases lt_trichotomy (first b) (first a) with less | same | more
  · rw [if_pos less]
    exact iff_of_true (by decide) (.inl less)
  · rw [if_neg same.not_lt, if_neg same.symm.not_lt]
    rcases lt_trichotomy (second b) (second a) with less' | same' | more'
    · rw [if_pos less']
      exact iff_of_true (by decide) (.inr ⟨same.symm, .inl less'⟩)
    · rw [if_neg same'.not_lt, if_neg same'.symm.not_lt]
      have order : (if a < b then (-1 : Int) else if b < a then 1 else 0) ≤ 0 ↔ a ≤ b := by
        split_ifs <;> omega
      rw [order]
      exact ⟨fun le => .inr ⟨same.symm, .inr ⟨same'.symm, le⟩⟩, fun which =>
        ((which.resolve_left same.not_lt).2.resolve_left same'.not_lt).2⟩
    · rw [if_neg more'.not_gt, if_pos more']
      refine iff_of_false (by decide) fun which => ?_
      rcases (which.resolve_left same.not_lt).2 with less' | ⟨same', -⟩
      · exact less'.not_gt more'
      · exact more'.ne same'
  · rw [if_neg more.not_gt, if_pos more]
    refine iff_of_false (by decide) fun which => ?_
    rcases which with less | ⟨same, -⟩
    · exact less.not_gt more
    · exact more.ne same

variable {first second}

theorem docKey_injective {a b : Nat} (same : docKey first second a = docKey first second b) :
    a = b :=
  congrArg (fun key => (ofLex (ofLex key).2).2) same

theorem sortDocs_perm (docs : List Nat) : (sortDocs first second docs).Perm docs :=
  List.perm_insertionSort _ docs

theorem mem_take_sortDocs {k docId : Nat} {docs : List Nat} :
    docId ∈ (sortDocs first second docs).take k ↔
      docKey first second docId ∈ TopK.best k (docs.map (docKey first second)) := by
  have sorted : (sortDocs first second docs).map (docKey first second) =
      (docs.map (docKey first second)).insertionSort (· ≤ ·) :=
    List.map_insertionSort _ _ _ docs fun a _ b _ => docCompare_le first second a b
  rw [TopK.best, ← sorted, ← List.map_take]
  refine ⟨List.mem_map_of_mem, fun member => ?_⟩
  obtain ⟨other, inside, same⟩ := List.mem_map.mp member
  exact docKey_injective same ▸ inside

end Orders

/-! ### The step -/

inductive PrecompactMode
  | centroidMaxSimTopK
  | centroidMaxSimReservoir
  deriving DecidableEq, Repr

structure PrecompactSettings where
  mode : PrecompactMode
  scoreK : Nat
  coverageK : Nat
  perTokenK : Nat
  compactMaxDocs : Nat

/-- The matched documents in the order of their matches, their scores and their numbers of matching
tokens, and for every query token the documents it touched. -/
structure Matched where
  docIds : List Nat
  docScores : Nat → Rat
  docTokenMatches : Nat → Nat
  tokens : List (List PostingCandidate)
  distinct : docIds.Nodup
  inside : ∀ token ∈ tokens, ∀ candidate ∈ token, candidate.docId ∈ docIds
  touched : ∀ docId ∈ docIds, ∃ token ∈ tokens, ∃ candidate ∈ token, candidate.docId = docId

structure Marks where
  keep : Nat → Bool
  unionDocs : Nat
  duplicates : Nat

def noMarks : Marks := ⟨fun _ => false, 0, 0⟩

/-- `PgturbohybridMultiVectorPrecompactMarkDoc`. -/
def markDoc (marks : Marks) (docId : Nat) : Marks :=
  if marks.keep docId then { marks with duplicates := marks.duplicates + 1 }
  else
    { marks with
      keep := Function.update marks.keep docId true
      unionDocs := marks.unionDocs + 1 }

def markAll (marks : Marks) (docIds : List Nat) : Marks := docIds.foldl markDoc marks

section Step

variable (settings : PrecompactSettings) (matched : Matched)

/-- `PrecompactDocScoreCompare` as a sort of the array. -/
def sortByScore : List Nat → List Nat := sortDocs matched.docScores matched.docTokenMatches

/-- `PrecompactDocCoverageCompare` as a sort of the array. -/
def sortByCoverage : List Nat → List Nat := sortDocs matched.docTokenMatches matched.docScores

def markScore (ranked : List Nat) (marks : Marks) : List Nat × Marks :=
  if 0 < settings.scoreK then
    let ranked := sortByScore matched ranked
    (ranked, markAll marks (ranked.take (min settings.scoreK matched.docIds.length)))
  else (ranked, marks)

def markCoverage (ranked : List Nat) (marks : Marks) : Marks :=
  if 0 < settings.coverageK then
    markAll marks
      ((sortByCoverage matched ranked).take (min settings.coverageK matched.docIds.length))
  else marks

/-- The documents that the list of a token holds at its end. -/
def tokenDocs (token : List PostingCandidate) : List Nat :=
  (token.foldl (postingOffer settings.perTokenK) []).map PostingCandidate.docId

def markTokens (marks : Marks) : Marks :=
  if 0 < settings.perTokenK then
    matched.tokens.foldl (fun marks token => markAll marks (tokenDocs settings token)) marks
  else marks

/-- The documents that are left where the union is too large. -/
def cutUnion (marks : Marks) : Marks :=
  if 0 < settings.compactMaxDocs ∧ settings.compactMaxDocs < marks.unionDocs then
    let kept := matched.docIds.filter marks.keep
    markAll { noMarks with duplicates := marks.duplicates }
      ((sortByScore matched kept).take (min settings.compactMaxDocs marks.unionDocs))
  else marks

/-- **The precompact step** on a set of matched documents that is not empty. -/
def precompact : Marks :=
  match settings.mode with
  | .centroidMaxSimTopK =>
    if settings.scoreK = 0 ∨ matched.docIds.length ≤ settings.scoreK then
      markAll noMarks matched.docIds
    else
      markAll noMarks
        ((sortByScore matched matched.docIds).take (min settings.scoreK matched.docIds.length))
  | .centroidMaxSimReservoir =>
    let (ranked, marks) := markScore settings matched matched.docIds noMarks
    cutUnion settings matched
      (markTokens settings matched (markCoverage settings matched ranked marks))

/-! ### The rule -/

def scoreKey : Nat → Ratᵒᵈ ×ₗ Natᵒᵈ ×ₗ Nat := docKey matched.docScores matched.docTokenMatches

def coverageKey : Nat → Natᵒᵈ ×ₗ Ratᵒᵈ ×ₗ Nat := docKey matched.docTokenMatches matched.docScores

/-- Larger scores first, then the smaller document, then the smaller ordinal. -/
def tokenKey (candidate : PostingCandidate) : Ratᵒᵈ ×ₗ Nat ×ₗ Nat :=
  toLex (OrderDual.toDual candidate.score, toLex (candidate.docId, candidate.ordinal))

def InScore (docId : Nat) : Prop :=
  scoreKey matched docId ∈ TopK.best settings.scoreK (matched.docIds.map (scoreKey matched))

def InCoverage (docId : Nat) : Prop :=
  coverageKey matched docId ∈
    TopK.best settings.coverageK (matched.docIds.map (coverageKey matched))

def InToken (docId : Nat) : Prop :=
  ∃ token ∈ matched.tokens, ∃ key ∈ TopK.best settings.perTokenK (token.map tokenKey),
    (ofLex (ofLex key).2).1 = docId

/-- **The union of the selections**, in the mode of the reservoirs; the other mode selects by score,
and everything where its limit is zero. -/
def InUnion (docId : Nat) : Prop :=
  docId ∈ matched.docIds ∧
    match settings.mode with
    | .centroidMaxSimTopK => settings.scoreK = 0 ∨ InScore settings matched docId
    | .centroidMaxSimReservoir =>
      InScore settings matched docId ∨ InCoverage settings matched docId ∨
        InToken settings matched docId

noncomputable def unionDocs : List Nat :=
  matched.docIds.filter fun docId =>
    @decide (InUnion settings matched docId) (Classical.propDecidable _)

/-- **A document that is kept**: one of the union, which the reservoirs cut to the best by score
where it is too large. -/
def Kept (docId : Nat) : Prop :=
  docId ∈ unionDocs settings matched ∧
    (settings.mode = .centroidMaxSimReservoir → 0 < settings.compactMaxDocs →
      settings.compactMaxDocs < (unionDocs settings matched).length →
        scoreKey matched docId ∈ TopK.best settings.compactMaxDocs
          ((unionDocs settings matched).map (scoreKey matched)))

/-! ### Marks -/

variable {settings matched}

theorem mem_unionDocs {docId : Nat} :
    docId ∈ unionDocs settings matched ↔ InUnion settings matched docId := by
  rw [unionDocs, List.mem_filter, @decide_eq_true_iff _ (Classical.propDecidable _)]
  exact ⟨And.right, fun inside => ⟨inside.1, inside⟩⟩

theorem markAll_keep (marks : Marks) (docIds : List Nat) (docId : Nat) :
    (markAll marks docIds).keep docId = true ↔ marks.keep docId = true ∨ docId ∈ docIds := by
  induction docIds generalizing marks with
  | nil => exact (or_iff_left List.not_mem_nil).symm
  | cons one rest ih =>
    rw [markAll, List.foldl_cons, ← markAll, ih, List.mem_cons, ← or_assoc]
    refine or_congr_left ?_
    rw [markDoc]
    split_ifs with known
    · exact ⟨.inl, fun either => either.elim id fun same => same ▸ known⟩
    · dsimp only
      rcases eq_or_ne docId one with rfl | other
      · rw [Function.update_self]
        exact iff_of_true rfl (.inr rfl)
      · rw [Function.update_of_ne other]
        exact (or_iff_left other).symm

variable (matched) in
def Counted (marks : Marks) : Prop :=
  marks.unionDocs = (matched.docIds.filter marks.keep).length

theorem noMarks_counted (duplicates : Nat) :
    Counted matched { noMarks with duplicates := duplicates } := by
  rw [Counted, noMarks, List.filter_false]
  rfl

theorem markDoc_counted {marks : Marks} (counted : Counted matched marks) {docId : Nat}
    (inside : docId ∈ matched.docIds) : Counted matched (markDoc marks docId) := by
  rw [markDoc]
  split_ifs with known
  · exact counted
  · have split := List.perm_cons_erase inside
    have out : docId ∉ matched.docIds.erase docId :=
      (List.nodup_cons.mp (split.nodup matched.distinct)).1
    have rest : (matched.docIds.erase docId).filter (Function.update marks.keep docId true) =
        (matched.docIds.erase docId).filter marks.keep := by
      refine List.filter_congr fun other member => Function.update_of_ne ?_ ..
      rintro rfl
      exact out member
    have before := (split.filter marks.keep).length_eq
    have after := (split.filter (Function.update marks.keep docId true)).length_eq
    rw [List.filter_cons_of_neg known] at before
    rw [List.filter_cons_of_pos (Function.update_self ..), rest, List.length_cons] at after
    rw [Counted] at counted ⊢
    dsimp only
    rw [counted, before, after]

theorem markAll_counted {marks : Marks} (counted : Counted matched marks) {docIds : List Nat}
    (inside : docIds ⊆ matched.docIds) : Counted matched (markAll marks docIds) := by
  induction docIds generalizing marks with
  | nil => exact counted
  | cons one rest ih =>
    exact ih (markDoc_counted counted (inside List.mem_cons_self)) fun other member =>
      inside (List.mem_cons_of_mem _ member)

/-! ### The selections -/

theorem take_sortDocs_subset {α β : Type} [LinearOrder α] [LinearOrder β] {first : Nat → α}
    {second : Nat → β} {k : Nat} {docs : List Nat} :
    (sortDocs first second docs).take k ⊆ docs :=
  List.Subset.trans (List.take_subset _ _) (sortDocs_perm docs).subset

theorem take_min_sortDocs {α β : Type} [LinearOrder α] [LinearOrder β] {first : Nat → α}
    {second : Nat → β} {k : Nat} {docs : List Nat} :
    (sortDocs first second docs).take (min k docs.length) =
      (sortDocs first second docs).take k := by
  rw [← (@sortDocs_perm _ _ _ _ first second docs).length_eq]
  exact (List.take_eq_take_min ..).symm

theorem postingBetter_iff (one other : PostingCandidate) :
    postingBetter one other = true ↔ tokenKey one < tokenKey other := by
  rw [tokenKey, tokenKey, Prod.Lex.toLex_lt_toLex, Prod.Lex.toLex_lt_toLex,
    OrderDual.toDual_lt_toDual, OrderDual.toDual_inj, postingBetter]
  rcases lt_trichotomy one.score other.score with less | same | more
  · rw [if_neg less.not_gt, if_pos less]
    refine iff_of_false (by decide) fun which => ?_
    rcases which with more | ⟨same, -⟩
    · exact less.not_gt more
    · exact less.ne same
  · rw [if_neg same.symm.not_lt, if_neg same.not_lt]
    split_ifs with less more
    · exact iff_of_true rfl (.inr ⟨same, .inl less⟩)
    · refine iff_of_false (by decide) fun which => ?_
      rcases (which.resolve_left same.symm.not_lt).2 with less' | ⟨same', -⟩
      · exact less less'
      · exact more.ne' same'
    · rw [decide_eq_true_eq]
      exact ⟨fun before => .inr ⟨same, .inr ⟨by omega, before⟩⟩, fun which =>
        ((which.resolve_left same.symm.not_lt).2.resolve_left less).2⟩
  · rw [if_pos more]
    exact iff_of_true rfl (.inl more)

theorem postingOffer_eq : postingOffer = WorstSlot.offer postingBetter := by
  funext limit selected candidate
  have worst : PostingScan.postingWorstIndex selected =
      WorstSlot.worstIndex postingBetter selected := by
    rw [PostingScan.postingWorstIndex, WorstSlot.worstIndex]
    congr 1
    funext worst index
    rcases selected[worst]? with _ | _ <;> rcases selected[index]? with _ | _ <;> rfl
  rw [postingOffer, WorstSlot.offer, worst]
  split_ifs
  · rfl
  · rcases selected[WorstSlot.worstIndex postingBetter selected]? with _ | _ <;> rfl

/-- **The list of a token** holds the best of the documents that the token touched. -/
theorem mem_tokenDocs {token : List PostingCandidate} {docId : Nat} :
    docId ∈ tokenDocs settings token ↔
      ∃ key ∈ TopK.best settings.perTokenK (token.map tokenKey),
        (ofLex (ofLex key).2).1 = docId := by
  have best := WorstSlot.offerAll_best postingBetter_iff settings.perTokenK token
  rw [tokenDocs, List.mem_map, postingOffer_eq]
  constructor
  · rintro ⟨candidate, held, rfl⟩
    exact ⟨tokenKey candidate, best.mem_iff.mp (List.mem_map_of_mem held), rfl⟩
  · rintro ⟨key, inside, rfl⟩
    obtain ⟨candidate, held, rfl⟩ := List.mem_map.mp (best.mem_iff.mpr inside)
    exact ⟨candidate, held, rfl⟩

theorem tokenDocs_subset {token : List PostingCandidate} (known : token ∈ matched.tokens) :
    tokenDocs settings token ⊆ matched.docIds := by
  intro docId member
  obtain ⟨key, inside, rfl⟩ := mem_tokenDocs.mp member
  obtain ⟨candidate, touched, rfl⟩ := List.mem_map.mp (TopK.mem_of_mem_best inside)
  exact matched.inside token known candidate touched

theorem best_zero {γ : Type} [LinearOrder γ] (items : List γ) : TopK.best 0 items = [] :=
  List.take_zero ..

/-- **The marks of the reservoirs** are the union, and they are counted. -/
theorem markReservoirs {ranked : List Nat} {marks : Marks}
    (score : markScore settings matched matched.docIds noMarks = (ranked, marks)) :
    let union := markTokens settings matched (markCoverage settings matched ranked marks)
    Counted matched union ∧ ∀ docId, union.keep docId = true ↔
      InScore settings matched docId ∨ InCoverage settings matched docId ∨
        InToken settings matched docId := by
  have first : (ranked.Perm matched.docIds) ∧ Counted matched marks ∧
      ∀ docId, marks.keep docId = true ↔ InScore settings matched docId := by
    rw [markScore] at score
    split_ifs at score with positive
    all_goals
      obtain ⟨rfl, rfl⟩ := Prod.mk.inj score
    · refine ⟨sortDocs_perm _, markAll_counted (noMarks_counted 0) take_sortDocs_subset, ?_⟩
      intro docId
      rw [markAll_keep, sortByScore, take_min_sortDocs, mem_take_sortDocs]
      exact or_iff_right Bool.false_ne_true
    · refine ⟨List.Perm.refl _, noMarks_counted 0, fun docId => ?_⟩
      rw [InScore, Nat.eq_zero_of_not_pos positive, best_zero]
      exact iff_of_false Bool.false_ne_true List.not_mem_nil
  obtain ⟨perm, counted, scored⟩ := first
  have second : Counted matched (markCoverage settings matched ranked marks) ∧
      ∀ docId, (markCoverage settings matched ranked marks).keep docId = true ↔
        InScore settings matched docId ∨ InCoverage settings matched docId := by
    rw [markCoverage]
    split_ifs with positive
    · refine ⟨markAll_counted counted (List.Subset.trans take_sortDocs_subset perm.subset),
        fun docId => ?_⟩
      rw [markAll_keep, scored, sortByCoverage, ← perm.length_eq, take_min_sortDocs,
        mem_take_sortDocs, TopK.best_perm (perm.map _)]
      rfl
    · refine ⟨counted, fun docId => ?_⟩
      rw [scored, InCoverage, Nat.eq_zero_of_not_pos positive, best_zero]
      exact (or_iff_left List.not_mem_nil).symm
  obtain ⟨counted', covered⟩ := second
  dsimp only
  rw [markTokens]
  split_ifs with positive
  · have run (tokens : List (List PostingCandidate)) (start : Marks)
        (known : tokens ⊆ matched.tokens) (begun : Counted matched start) :
        Counted matched (tokens.foldl (fun marks token =>
          markAll marks (tokenDocs settings token)) start) ∧
        ∀ docId, (tokens.foldl (fun marks token =>
          markAll marks (tokenDocs settings token)) start).keep docId = true ↔
            start.keep docId = true ∨ ∃ token ∈ tokens, docId ∈ tokenDocs settings token := by
      induction tokens generalizing start with
      | nil => exact ⟨begun, fun docId => by simp⟩
      | cons token rest ih =>
        have here := markAll_counted begun
          (@tokenDocs_subset settings _ _ (known List.mem_cons_self))
        obtain ⟨after, kept⟩ := ih _ (fun _ member => known (List.mem_cons_of_mem _ member)) here
        refine ⟨after, fun docId => ?_⟩
        rw [List.foldl_cons, kept, markAll_keep, or_assoc]
        refine or_congr_right ⟨fun either => ?_, ?_⟩
        · rcases either with held | ⟨other, member, held⟩
          · exact ⟨token, List.mem_cons_self, held⟩
          · exact ⟨other, List.mem_cons_of_mem _ member, held⟩
        · rintro ⟨other, member, held⟩
          rcases List.mem_cons.mp member with rfl | later
          · exact .inl held
          · exact .inr ⟨other, later, held⟩
    obtain ⟨after, kept⟩ := run matched.tokens _ (List.Subset.refl _) counted'
    refine ⟨after, fun docId => ?_⟩
    rw [kept, covered, or_assoc]
    refine or_congr_right (or_congr_right (exists_congr fun token => and_congr_right fun _ => ?_))
    exact mem_tokenDocs
  · refine ⟨counted', fun docId => ?_⟩
    rw [covered, InToken, Nat.eq_zero_of_not_pos positive, ← or_assoc]
    refine (or_iff_left ?_).symm
    rintro ⟨token, -, key, member, -⟩
    rw [best_zero] at member
    cases member

/-- **What is kept**, by the rules of the selections. -/
theorem precompact_keep_iff (docId : Nat) :
    (precompact settings matched).keep docId = true ↔ Kept settings matched docId := by
  rw [precompact]
  rcases mode : settings.mode with _ | _
  · have unmarked : noMarks.keep docId ≠ true := Bool.false_ne_true
    have union : docId ∈ unionDocs settings matched ↔ docId ∈ matched.docIds ∧
        (settings.scoreK = 0 ∨ InScore settings matched docId) := by
      rw [mem_unionDocs, InUnion, mode]
    have kept : Kept settings matched docId ↔ docId ∈ unionDocs settings matched :=
      ⟨And.left, fun inside => ⟨inside, fun reservoir =>
        absurd (mode.symm.trans reservoir) (by decide)⟩⟩
    rw [kept, union]
    dsimp only
    split_ifs with whole
    · rw [markAll_keep, or_iff_right unmarked]
      refine ⟨fun inside => ⟨inside, whole.imp_right fun few => ?_⟩, And.left⟩
      refine (TopK.best_perm_of_le ?_).mem_iff.mpr (List.mem_map_of_mem inside)
      rwa [List.length_map]
    · rw [markAll_keep, or_iff_right unmarked, sortByScore, take_min_sortDocs]
      constructor
      · exact fun member => ⟨take_sortDocs_subset member, .inr (mem_take_sortDocs.mp member)⟩
      · exact fun inside => mem_take_sortDocs.mpr
          (inside.2.resolve_left fun zero => whole (.inl zero))
  · rcases score : markScore settings matched matched.docIds noMarks with ⟨ranked, marks⟩
    obtain ⟨counted, keeps⟩ := markReservoirs score
    dsimp only at counted keeps ⊢
    set union := markTokens settings matched (markCoverage settings matched ranked marks)
      with unionOf
    have inside (docId : Nat) (marked : union.keep docId = true) : docId ∈ matched.docIds := by
      rcases (keeps docId).mp marked with byScore | byCoverage | ⟨token, known, key, best, rfl⟩
      · exact take_sortDocs_subset (mem_take_sortDocs.mpr byScore)
      · exact take_sortDocs_subset (mem_take_sortDocs.mpr byCoverage)
      · exact @tokenDocs_subset settings _ _ known _ (mem_tokenDocs.mpr ⟨key, best, rfl⟩)
    have inUnion (docId : Nat) : InUnion settings matched docId ↔ union.keep docId = true := by
      rw [InUnion, mode]
      exact ⟨fun both => (keeps docId).mpr both.2, fun marked =>
        ⟨inside docId marked, (keeps docId).mp marked⟩⟩
    have same : matched.docIds.filter union.keep = unionDocs settings matched := by
      refine List.filter_congr fun other _ => Bool.eq_iff_iff.mpr ?_
      rw [@decide_eq_true_iff _ (Classical.propDecidable _)]
      exact (inUnion other).symm
    have size : union.unionDocs = (unionDocs settings matched).length :=
      counted.trans (congrArg List.length same)
    rw [cutUnion, same, size]
    split_ifs with large
    · have few : min settings.compactMaxDocs (unionDocs settings matched).length =
          settings.compactMaxDocs := min_eq_left large.2.le
      rw [markAll_keep, few, sortByScore]
      refine (or_iff_right Bool.false_ne_true).trans ?_
      rw [Kept, mem_take_sortDocs]
      exact ⟨fun best => ⟨take_sortDocs_subset (mem_take_sortDocs.mpr best), fun _ _ _ => best⟩,
        fun kept => kept.2 mode large.1 large.2⟩
    · rw [← inUnion, Kept, mem_unionDocs]
      exact ⟨fun union => ⟨union, fun _ positive more => absurd ⟨positive, more⟩ large⟩, And.left⟩

/-! ### The order of the matches -/

/-- The same documents, matched and touched in another order. -/
structure SameMatched (one other : Matched) : Prop where
  docIds : one.docIds.Perm other.docIds
  docScores : one.docScores = other.docScores
  docTokenMatches : one.docTokenMatches = other.docTokenMatches
  tokens : List.Forall₂ List.Perm one.tokens other.tokens

theorem SameMatched.inToken {one other : Matched} (same : SameMatched one other) (docId : Nat) :
    InToken settings one docId ↔ InToken settings other docId := by
  have best (a b : List PostingCandidate) (perm : a.Perm b) :
      TopK.best settings.perTokenK (a.map tokenKey) =
        TopK.best settings.perTokenK (b.map tokenKey) := TopK.best_perm (perm.map tokenKey)
  have run (a b : List (List PostingCandidate)) (perms : List.Forall₂ List.Perm a b) :
      (∃ token ∈ a, ∃ key ∈ TopK.best settings.perTokenK (token.map tokenKey),
        (ofLex (ofLex key).2).1 = docId) ↔
      ∃ token ∈ b, ∃ key ∈ TopK.best settings.perTokenK (token.map tokenKey),
        (ofLex (ofLex key).2).1 = docId := by
    induction perms with
    | nil => exact Iff.rfl
    | cons perm _ ih => simp only [List.exists_mem_cons_iff, ih, best _ _ perm]
  exact run _ _ same.tokens

theorem SameMatched.inUnion {one other : Matched} (same : SameMatched one other) (docId : Nat) :
    InUnion settings one docId ↔ InUnion settings other docId := by
  have score : InScore settings one docId ↔ InScore settings other docId := by
    rw [InScore, InScore, scoreKey, scoreKey, same.docScores, same.docTokenMatches,
      TopK.best_perm (same.docIds.map _)]
  have coverage : InCoverage settings one docId ↔ InCoverage settings other docId := by
    rw [InCoverage, InCoverage, coverageKey, coverageKey, same.docScores, same.docTokenMatches,
      TopK.best_perm (same.docIds.map _)]
  rw [InUnion, InUnion, same.docIds.mem_iff, score, coverage, same.inToken]

/-- **The order of the matches** does not matter. -/
theorem precompact_perm {one other : Matched} (same : SameMatched one other) :
    (precompact settings one).keep = (precompact settings other).keep := by
  funext docId
  rw [Bool.eq_iff_iff, precompact_keep_iff, precompact_keep_iff]
  have predicate : (fun docId => @decide (InUnion settings one docId) (Classical.propDecidable _)) =
      fun docId => @decide (InUnion settings other docId) (Classical.propDecidable _) := by
    funext docId
    rw [Bool.eq_iff_iff, @decide_eq_true_iff _ (Classical.propDecidable _),
      @decide_eq_true_iff _ (Classical.propDecidable _)]
    exact same.inUnion docId
  have union : (unionDocs settings one).Perm (unionDocs settings other) := by
    rw [unionDocs, unionDocs, predicate]
    exact same.docIds.filter _
  rw [Kept, Kept, union.mem_iff, union.length_eq, scoreKey, scoreKey, same.docScores,
    same.docTokenMatches, TopK.best_perm (union.map _)]

/-! ### Sets that are not emptied -/

theorem exists_mem_best {γ : Type} [LinearOrder γ] {k : Nat} (items : List γ) (positive : 0 < k)
    (some_ : items ≠ []) : ∃ item, item ∈ TopK.best k items := by
  refine List.exists_mem_of_length_pos ?_
  have length := List.length_pos_iff.mpr some_
  rw [(TopK.best_selects k items).count]
  omega

theorem exists_docId_best {γ : Type} [LinearOrder γ] {k : Nat} (key : Nat → γ) (positive : 0 < k)
    (some_ : matched.docIds ≠ []) :
    ∃ docId ∈ matched.docIds, key docId ∈ TopK.best k (matched.docIds.map key) := by
  obtain ⟨item, best⟩ := exists_mem_best (matched.docIds.map key) positive
    (mt List.map_eq_nil_iff.mp some_)
  obtain ⟨docId, inside, rfl⟩ := List.mem_map.mp (TopK.mem_of_mem_best best)
  exact ⟨docId, inside, best⟩

variable (settings) in
def SomeLimit : Prop :=
  settings.mode = .centroidMaxSimTopK ∨ 0 < settings.scoreK ∨ 0 < settings.coverageK ∨
    0 < settings.perTokenK

/-- **With a positive limit** some matched document is kept. -/
theorem precompact_nonempty (some_ : matched.docIds ≠ []) (limit : SomeLimit settings) :
    ∃ docId ∈ matched.docIds, (precompact settings matched).keep docId = true := by
  have union : ∃ docId, InUnion settings matched docId := by
    rcases mode : settings.mode with _ | _
    · obtain ⟨docId, inside⟩ := List.exists_mem_of_ne_nil _ some_
      rcases Nat.eq_zero_or_pos settings.scoreK with zero | positive
      · refine ⟨docId, inside, ?_⟩
        rw [mode]
        exact .inl zero
      · obtain ⟨docId, inside, best⟩ := exists_docId_best (scoreKey matched) positive some_
        refine ⟨docId, inside, ?_⟩
        rw [mode]
        exact .inr best
    · rcases limit with topK | positive | positive | positive
      · rw [mode] at topK
        cases topK
      · obtain ⟨docId, inside, best⟩ := exists_docId_best (scoreKey matched) positive some_
        refine ⟨docId, inside, ?_⟩
        rw [mode]
        exact .inl best
      · obtain ⟨docId, inside, best⟩ := exists_docId_best (coverageKey matched) positive some_
        refine ⟨docId, inside, ?_⟩
        rw [mode]
        exact .inr (.inl best)
      · obtain ⟨docId, inside⟩ := List.exists_mem_of_ne_nil _ some_
        obtain ⟨token, known, candidate, touched, -⟩ := matched.touched docId inside
        obtain ⟨key, best⟩ := exists_mem_best (token.map tokenKey) positive
          (List.ne_nil_of_mem (List.mem_map_of_mem touched))
        obtain ⟨other, held, rfl⟩ := List.mem_map.mp (TopK.mem_of_mem_best best)
        refine ⟨other.docId, matched.inside token known other held, ?_⟩
        rw [mode]
        exact .inr (.inr ⟨token, known, _, best, rfl⟩)
  obtain ⟨docId, inUnion⟩ := union
  have member := mem_unionDocs.mpr inUnion
  by_cases cut : 0 < settings.compactMaxDocs
  · obtain ⟨item, best⟩ := exists_mem_best ((unionDocs settings matched).map
      (scoreKey matched)) cut (List.ne_nil_of_mem (List.mem_map_of_mem member))
    obtain ⟨kept, inside, rfl⟩ := List.mem_map.mp (TopK.mem_of_mem_best best)
    exact ⟨kept, (mem_unionDocs.mp inside).1,
      (precompact_keep_iff kept).mpr ⟨inside, fun _ _ _ => best⟩⟩
  · exact ⟨docId, inUnion.1, (precompact_keep_iff docId).mpr
      ⟨member, fun _ positive => absurd positive cut⟩⟩

end Step

/-! ### The order of scoring -/

def scanOf (scan : PostingScan) (settings : QuantizedInverted) (docIdOrder : Bool) : PostingScan :=
  { scan with source := .quantizedInverted { settings with docIdOrder := docIdOrder } }

theorem scanOf_documents (scan : PostingScan) (settings : QuantizedInverted)
    (state : PostingState) :
    ((scanOf scan settings true).documents state).Perm
      ((scanOf scan settings false).documents state) :=
  (List.perm_insertionSort _ _).filter _

theorem offerAll_zero {α : Type} (worse : α → α → Bool) (items : List α) :
    items.foldl (BoundedHeap.offer worse 0) #[] = #[] := by
  induction items with
  | nil => rfl
  | cons item rest ih => exact ih

/-- **The order of scoring** changes no candidate, where no document is skipped for its bound. -/
theorem candidateKeys_docIdOrder (scan : PostingScan) (settings : QuantizedInverted) :
    (scanOf scan settings true).candidateKeys false =
      (scanOf scan settings false).candidateKeys false := by
  have same : (scanOf scan settings true).accumulate =
      (scanOf scan settings false).accumulate := rfl
  rw [PostingScan.candidateKeys, PostingScan.candidateKeys, same]
  rcases (scanOf scan settings false).accumulate with message | state
  · rfl
  · refine congrArg Except.ok ?_
    dsimp only
    rcases Nat.eq_zero_or_pos scan.candidateLimit with none_ | positive
    · have limit (order : Bool) : (scanOf scan settings order).candidateLimit = 0 := none_
      rw [PostingScan.candidateLoop_plain, PostingScan.candidateLoop_plain, limit, limit]
      rw [offerAll_zero, offerAll_zero]
    · rw [PostingScan.plain_keys (scanOf scan settings true) positive,
        PostingScan.plain_keys (scanOf scan settings false) positive]
      exact TopK.best_perm ((scanOf_documents scan settings state).map _)

def oneMatched : Matched where
  docIds := [0]
  docScores _ := 1
  docTokenMatches _ := 1
  tokens := [[⟨0, 0, 1⟩]]
  distinct := List.nodup_singleton 0
  inside := by simp
  touched := by simp

def zeroLimits : PrecompactSettings where
  mode := .centroidMaxSimReservoir
  scoreK := 0
  coverageK := 0
  perTokenK := 0
  compactMaxDocs := 6144

end TurboHybrid.Precompact
