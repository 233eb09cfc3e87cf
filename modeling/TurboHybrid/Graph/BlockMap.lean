/-
**The block map of a chain.**

A map from page numbers to blocks is filled from the chain in one pass. The pass jumps to the block of
an entry it knows and takes the block it stands on for the next entry it does not know, which is the
same block again.

* `fillBlockMap_unmapped`: entries in front of the first known one are filled rightly;
* `fillBlockMap_behind`: every other filled entry has the block of the page before its own;
* `ensureBlockMap_right_iff`: when a filled map is right.
-/
import TurboHybrid.Library.PageChain
import Mathlib.Order.Nat
import Mathlib.Data.Nat.Find
import Mathlib.Tactic.Push

namespace TurboHybrid.BlockMap

open TurboHybrid.Library

variable {Kind Item : Type} [DecidableEq Kind]

/-! ### The pass -/

/-- The loop over the entries of a map, on the way along the chain. -/
def fillBlockMap (pageKind : Kind) (pages : List (Page Kind Item)) :
    Nat → Nat → Option Nat → (Nat → Option Nat) → Except String (Bool × (Nat → Option Nat))
  | 0, _, _, blknos => .ok (true, blknos)
  | left + 1, pageNo, blkno, blknos =>
    match blknos pageNo with
    | some known => fillBlockMap pageKind pages left (pageNo + 1) (some known) blknos
    | none =>
      match blkno with
      | none => .ok (false, blknos)
      | some blkno =>
        match pages[blkno]? with
        | none => .error "could not read block"
        | some page =>
          if page.kind ≠ some pageKind then .ok (false, blknos)
          else
            fillBlockMap pageKind pages left (pageNo + 1) page.next
              (Function.update blknos pageNo (some blkno))

/-- Whether the map has all its entries after the call. -/
def ensureBlockMap (pageKind : Kind) (pages : List (Page Kind Item)) (startBlkno : Option Nat)
    (pageCount : Nat) (blknos : Nat → Option Nat) : Except String (Bool × (Nat → Option Nat)) :=
  if pageCount = 0 then .ok (true, blknos)
  else if (blknos (pageCount - 1)).isSome then .ok (true, blknos)
  else fillBlockMap pageKind pages pageCount 0 startBlkno blknos

def KnownRight (blocks : List Nat) (pageCount : Nat) (blknos : Nat → Option Nat) : Prop :=
  ∀ pageNo < pageCount, ∀ known, blknos pageNo = some known → blocks[pageNo]? = some known

def Right (blocks : List Nat) (pageCount : Nat) (blknos : Nat → Option Nat) : Prop :=
  ∀ pageNo < pageCount, ∃ block, blocks[pageNo]? = some block ∧ blknos pageNo = some block

section Chain

variable {kind : Kind} {pages : List (Page Kind Item)} {start : Option Nat} {blocks : List Nat}
  {blknos : Nat → Option Nat} {left pageNo pageCount : Nat}

theorem fillBlockMap_known {blkno : Option Nat} {known : Nat} (found : blknos pageNo = some known) :
    fillBlockMap kind pages (left + 1) pageNo blkno blknos =
      fillBlockMap kind pages left (pageNo + 1) (some known) blknos := by
  conv_lhs => unfold fillBlockMap
  rw [found]

theorem fillBlockMap_end (unknown : blknos pageNo = none) :
    fillBlockMap kind pages (left + 1) pageNo none blknos = .ok (false, blknos) := by
  unfold fillBlockMap
  rw [unknown]

theorem fillBlockMap_step (chain : IsChain kind pages start blocks) {position block : Nat}
    (here : blocks[position]? = some block) (unknown : blknos pageNo = none) :
    fillBlockMap kind pages (left + 1) pageNo blocks[position]? blknos =
      fillBlockMap kind pages left (pageNo + 1) blocks[position + 1]?
        (Function.update blknos pageNo (some block)) := by
  obtain ⟨page, there, same, next⟩ := chain.page here
  conv_lhs => unfold fillBlockMap
  rw [unknown, here]
  simp only [there]
  rw [if_neg (not_not.mpr same), next]

/-- The map after the walk has filled some entries from the front. -/
def filledUpTo (blocks : List Nat) (blknos : Nat → Option Nat) (count pageNo : Nat) : Option Nat :=
  if pageNo < count then blocks[pageNo]? else blknos pageNo

/-- **In front of the first known entry** the walk fills in the right blocks. -/
theorem fillBlockMap_unmapped (chain : IsChain kind pages start blocks) {count : Nat}
    (unknown : ∀ pageNo < count, blknos pageNo = none) (enough : count ≤ blocks.length) :
    fillBlockMap kind pages (count + left) 0 start blknos =
      fillBlockMap kind pages left count blocks[count]? (filledUpTo blocks blknos count) := by
  have steps (done rest : Nat) (whole : done + rest = count) :
      fillBlockMap kind pages (rest + left) done blocks[done]? (filledUpTo blocks blknos done) =
        fillBlockMap kind pages left count blocks[count]? (filledUpTo blocks blknos count) := by
    induction rest generalizing done with
    | zero =>
      obtain rfl : done = count := whole
      rw [Nat.zero_add]
    | succ rest ih =>
      have inside : done < blocks.length := by omega
      have here := List.getElem?_eq_getElem inside
      have filled : Function.update (filledUpTo blocks blknos done) done (some blocks[done]) =
          filledUpTo blocks blknos (done + 1) := by
        funext other
        unfold filledUpTo
        rw [Function.update_apply]
        split_ifs with same before after after
        · rw [same, here]
        · omega
        · rfl
        · omega
        · omega
        · rfl
      have empty : filledUpTo blocks blknos done done = none := by
        rw [filledUpTo, if_neg (lt_irrefl _)]
        exact unknown done (by omega)
      rw [show rest + 1 + left = rest + left + 1 by omega, fillBlockMap_step chain here empty,
        filled]
      exact ih (done + 1) (by omega)
  have begun : filledUpTo blocks blknos 0 = blknos := by
    funext pageNo
    exact if_neg (Nat.not_lt_zero _)
  have whole := steps 0 count (Nat.zero_add _)
  rwa [begun, ← chain.start_eq] at whole

/-- **Behind a known entry** the walk is one page late. -/
theorem fillBlockMap_behind (chain : IsChain kind pages start blocks)
    (right : ∀ other, pageNo < other → other < pageNo + 1 + left → ∀ known,
      blknos other = some known → blocks[other]? = some known)
    (enough : pageNo + left ≤ blocks.length) :
    ∃ after, fillBlockMap kind pages left (pageNo + 1) blocks[pageNo]? blknos = .ok (true, after) ∧
      (∀ other ≤ pageNo, after other = blknos other) ∧
      ∀ other, pageNo ≤ other → other < pageNo + left → blknos (other + 1) = none →
        after (other + 1) = blocks[other]? := by
  induction left generalizing pageNo blknos with
  | zero => exact ⟨blknos, rfl, fun _ _ => rfl, fun other from' below => by omega⟩
  | succ left ih =>
    cases entry : blknos (pageNo + 1) with
    | some known =>
      obtain ⟨after, filled, before, late⟩ := @ih blknos (pageNo + 1)
        (fun other behind below => right other (by omega) (by omega)) (by omega)
      refine ⟨after, ?_, fun other within => before other (by omega), ?_⟩
      · rw [fillBlockMap_known entry, ← right (pageNo + 1) (by omega) (by omega) known entry]
        exact filled
      · intro other from' below unknown
        refine late other ?_ (by omega) unknown
        have differs : other ≠ pageNo := by
          rintro rfl
          rw [entry] at unknown
          cases unknown
        omega
    | none =>
      have inside : pageNo < blocks.length := by omega
      have here := List.getElem?_eq_getElem inside
      have apart (other : Nat) (differs : other ≠ pageNo + 1) :
          Function.update blknos (pageNo + 1) (some blocks[pageNo]) other = blknos other :=
        Function.update_of_ne differs _ _
      obtain ⟨after, filled, before, late⟩ := @ih
        (Function.update blknos (pageNo + 1) (some blocks[pageNo])) (pageNo + 1)
        (fun other behind below known found => by
          rw [apart other (by omega)] at found
          exact right other (by omega) (by omega) known found) (by omega)
      refine ⟨after, ?_, ?_, ?_⟩
      · rw [fillBlockMap_step chain here entry]
        exact filled
      · intro other within
        rw [before other (by omega), apart other (by omega)]
      · intro other from' below unknown
        by_cases first : other = pageNo
        · subst first
          rw [before _ (le_refl _), Function.update_self, here]
        · refine late other (by omega) (by omega) ?_
          rw [apart _ (by omega)]
          exact unknown

theorem fillBlockMap_short (chain : IsChain kind pages start blocks)
    (right : ∀ other, pageNo < other → other < pageNo + 1 + left → ∀ known,
      blknos other = some known → blocks[other]? = some known)
    (within : pageNo ≤ blocks.length) (short : blocks.length < pageNo + left) :
    ∃ after, fillBlockMap kind pages left (pageNo + 1) blocks[pageNo]? blknos =
      .ok (false, after) := by
  induction left generalizing pageNo blknos with
  | zero => omega
  | succ left ih =>
    cases entry : blknos (pageNo + 1) with
    | some known =>
      have own := right (pageNo + 1) (by omega) (by omega) known entry
      obtain ⟨inside, -⟩ := List.getElem?_eq_some_iff.mp own
      obtain ⟨after, filled⟩ := @ih blknos (pageNo + 1)
        (fun other behind below => right other (by omega) (by omega)) (by omega) (by omega)
      refine ⟨after, ?_⟩
      rw [fillBlockMap_known entry, ← own]
      exact filled
    | none =>
      by_cases inside : pageNo < blocks.length
      · have here := List.getElem?_eq_getElem inside
        rw [fillBlockMap_step chain here entry]
        refine @ih _ (pageNo + 1) (fun other behind below known found => ?_) (by omega) (by omega)
        rw [Function.update_of_ne (by omega)] at found
        exact right other (by omega) (by omega) known found
      · refine ⟨blknos, ?_⟩
        rw [List.getElem?_eq_none (by omega), fillBlockMap_end entry]

theorem ensureBlockMap_unmapped (chain : IsChain kind pages start blocks)
    (unknown : ∀ pageNo < pageCount, blknos pageNo = none) {after : Nat → Option Nat}
    (filled : ensureBlockMap kind pages start pageCount blknos = .ok (true, after)) :
    Right blocks pageCount after := by
  unfold ensureBlockMap at filled
  by_cases none' : pageCount = 0
  · intro pageNo below
    omega
  · rw [if_neg none', if_neg (by rw [unknown _ (by omega)]; decide)] at filled
    rcases le_or_gt pageCount blocks.length with enough | short
    · have walked := @fillBlockMap_unmapped _ _ _ _ _ _ _ blknos 0 chain pageCount unknown enough
      rw [Nat.add_zero, filled] at walked
      obtain rfl := (Prod.mk.inj (Except.ok.inj walked)).2
      intro pageNo below
      have here := List.getElem?_eq_getElem (below.trans_le enough)
      exact ⟨_, here, (if_pos below).trans here⟩
    · have walked := @fillBlockMap_unmapped _ _ _ _ _ _ _ blknos (pageCount - blocks.length)
        chain blocks.length (fun pageNo below => unknown pageNo (by omega)) le_rfl
      rw [Nat.add_sub_cancel' short.le, filled] at walked
      obtain ⟨more, count⟩ : ∃ more, pageCount - blocks.length = more + 1 :=
        ⟨pageCount - blocks.length - 1, by omega⟩
      have empty : filledUpTo blocks blknos blocks.length blocks.length = none := by
        rw [filledUpTo, if_neg (lt_irrefl _)]
        exact unknown _ short
      rw [count, List.getElem?_eq_none le_rfl, fillBlockMap_end empty] at walked
      cases walked

theorem ensureBlockMap_mixed (chain : IsChain kind pages start blocks)
    (right : KnownRight blocks pageCount blknos) {first known : Nat} (below : first < pageCount)
    (found : blknos first = some known) (earlier : ∀ pageNo < first, blknos pageNo = none)
    (last : blknos (pageCount - 1) = none) :
    let before := filledUpTo blocks blknos first
    ensureBlockMap kind pages start pageCount blknos =
        fillBlockMap kind pages (pageCount - 1 - first) (first + 1) blocks[first]? before ∧
      (∀ other, first < other → before other = blknos other) := by
  intro before
  have own := right first below known found
  obtain ⟨inside, -⟩ := List.getElem?_eq_some_iff.mp own
  have behind (other : Nat) (later : first ≤ other) : before other = blknos other :=
    if_neg (by omega)
  refine ⟨?_, fun other later => behind other later.le⟩
  unfold ensureBlockMap
  rw [if_neg (by omega), if_neg (by rw [last]; decide)]
  have walked := @fillBlockMap_unmapped _ _ _ _ _ _ _ blknos (pageCount - 1 - first + 1) chain
    first earlier inside.le
  rw [show first + (pageCount - 1 - first + 1) = pageCount by omega] at walked
  rw [walked, fillBlockMap_known ((behind first le_rfl).trans found), own]

/-- **When a filled map is right.** -/
theorem ensureBlockMap_right_iff (chain : IsChain kind pages start blocks) (pageCount : Nat)
    (right : KnownRight blocks pageCount blknos) :
    (∀ after, ensureBlockMap kind pages start pageCount blknos = .ok (true, after) →
        Right blocks pageCount after) ↔
      (∀ pageNo < pageCount, blknos pageNo = none) ∨
        (∀ pageNo < pageCount, (blknos pageNo).isSome) ∨ blocks.length + 1 < pageCount := by
  by_cases unknown : ∀ pageNo < pageCount, blknos pageNo = none
  · exact iff_of_true (fun after => ensureBlockMap_unmapped chain unknown) (.inl unknown)
  by_cases every : ∀ pageNo < pageCount, (blknos pageNo).isSome
  · refine iff_of_true (fun after filled => ?_) (.inr (.inl every))
    unfold ensureBlockMap at filled
    have same : blknos = after := by
      split_ifs at filled with none' last
      · exact (Prod.mk.inj (Except.ok.inj filled)).2
      · exact (Prod.mk.inj (Except.ok.inj filled)).2
      · exact absurd (every (pageCount - 1) (by omega)) last
    subst same
    intro pageNo below
    obtain ⟨known, found⟩ := Option.isSome_iff_exists.mp (every pageNo below)
    exact ⟨known, right pageNo below known found, found⟩
  rw [or_iff_right unknown, or_iff_right every]
  push Not at unknown every
  obtain ⟨hole, inHole, empty⟩ := every
  rw [ne_eq, Option.not_isSome_iff_eq_none] at empty
  have known : ∃ pageNo, pageNo < pageCount ∧ blknos pageNo ≠ none := unknown
  cases last : blknos (pageCount - 1) with
  | some final =>
    -- The last entry is known: nothing is filled and the hole stays.
    have inside := (List.getElem?_eq_some_iff.mp (right _ (by omega) final last)).1
    refine iff_of_false (fun rights => ?_) (by omega)
    obtain ⟨block, -, own⟩ := rights blknos
      (by rw [ensureBlockMap, if_neg (by omega), if_pos (by rw [last]; rfl)]) hole inHole
    rw [empty] at own
    cases own
  | none =>
    classical
    obtain ⟨below, some'⟩ := Nat.find_spec known
    have earlier : ∀ pageNo < Nat.find known, blknos pageNo = none := by
      intro pageNo less
      by_contra found
      exact Nat.find_min known less ⟨less.trans below, found⟩
    obtain ⟨block, found⟩ := Option.ne_none_iff_exists'.mp some'
    have apart : Nat.find known ≠ pageCount - 1 := by
      intro same
      rw [same, last] at found
      cases found
    obtain ⟨walked, kept⟩ := ensureBlockMap_mixed chain right below found earlier last
    have inside := (List.getElem?_eq_some_iff.mp (right _ below block found)).1
    have later : ∀ other, Nat.find known < other →
        other < Nat.find known + 1 + (pageCount - 1 - Nat.find known) → ∀ known',
        filledUpTo blocks blknos (Nat.find known) other = some known' →
          blocks[other]? = some known' := by
      intro other behind within known' own
      rw [kept other behind] at own
      exact right other (by omega) known' own
    by_cases short : blocks.length + 1 < pageCount
    · refine iff_of_true (fun after filled => ?_) short
      obtain ⟨unfilled, failed⟩ := fillBlockMap_short chain later inside.le (by omega)
      rw [walked, failed] at filled
      cases filled
    · refine iff_of_false (fun rights => ?_) short
      obtain ⟨after, filled, -, late⟩ := fillBlockMap_behind chain later (by omega)
      obtain ⟨own, named, entry⟩ := rights after (walked.trans filled) (pageCount - 1) (by omega)
      have shifted := late (pageCount - 2) (by omega) (by omega)
      rw [show pageCount - 2 + 1 = pageCount - 1 by omega, kept _ (by omega)] at shifted
      rw [shifted last] at entry
      obtain ⟨one, at'⟩ := List.getElem?_eq_some_iff.mp named
      obtain ⟨other, at''⟩ := List.getElem?_eq_some_iff.mp entry
      have same := (List.Nodup.getElem_inj_iff chain.nodup).mp (at'.trans at''.symm)
      omega

end Chain

/-! ### Three pages -/

inductive ChainKind where
  | adj
  | code
  deriving DecidableEq, Repr

def threePages : List (Page ChainKind Nat) :=
  [⟨none, [], none⟩, ⟨some .adj, [0], some 2⟩, ⟨some .adj, [1], some 3⟩, ⟨some .adj, [2], none⟩]

theorem threePages_chain : IsChain .adj threePages (some 1) [1, 2, 3] :=
  ⟨rfl, _, rfl, rfl, rfl, _, rfl, rfl, rfl, _, rfl, rfl, rfl⟩

/-- An empty map is filled, entry by entry. -/
theorem ensureBlockMap_threePages :
    ∃ after, ensureBlockMap .adj threePages (some 1) 3 (fun _ => none) = .ok (true, after) ∧
      Right [1, 2, 3] 3 after := by
  refine ⟨_, rfl, ?_⟩
  exact (ensureBlockMap_right_iff threePages_chain 3 fun _ _ _ absurd => by cases absurd).mpr
    (.inl fun _ _ => rfl) _ rfl

def firstKnown (pageNo : Nat) : Option Nat := if pageNo = 0 then some 1 else none

/-- With the first entry known, the second page has the first one's block. -/
theorem ensureBlockMap_firstKnown :
    KnownRight [1, 2, 3] 3 firstKnown ∧
      ∃ after, ensureBlockMap .adj threePages (some 1) 3 firstKnown = .ok (true, after) ∧
        after 1 = some 1 ∧ ¬Right [1, 2, 3] 3 after := by
  refine ⟨?_, _, rfl, rfl, fun right => ?_⟩
  · intro pageNo _ known found
    unfold firstKnown at found
    split_ifs at found with first
    · rw [first, ← Option.some.inj found]
      rfl
  · obtain ⟨block, named, entry⟩ := right 1 (by decide)
    obtain rfl : 2 = block := Option.some.inj named
    cases Option.some.inj entry

end TurboHybrid.BlockMap
