/-
**Relations whose pointers stay inside.**

Every link of a page, and every block that an item names, is a block of the relation. Then a reader
that follows them sees no page beyond those there were, and what is added later changes nothing.

* `Within`: the pointers of a relation stay inside;
* `appendTuple_within`: an append, refused or not, keeps them there;
* `walk_fuel`: a walk over the blocks of a relation needs no more steps than there are blocks;
* `readChain_extended`: a chain reads the same once the relation has grown.
-/
import Mathlib.Order.Interval.Finset.Nat
import TurboHybrid.Library.PageChain
import TurboHybrid.Library.Results

set_option linter.unusedSectionVars false

namespace TurboHybrid.Library

/-! ### Walks -/

section Walks

variable {Error Item : Type}

/-- The items from a block on, where a visit of a block says which one comes next. -/
def walk (visit : Nat → Except Error (List Item × Option Nat)) (endless : Error) :
    Nat → Option Nat → Except Error (List Item)
  | _, none => .ok []
  | 0, some _ => .error endless
  | fuel + 1, some block => do
    let visited ← visit block
    let later ← walk visit endless fuel visited.2
    return visited.1 ++ later

def Lasts (visit : Nat → Except Error (List Item × Option Nat)) : Nat → Nat → Prop
  | 0, _ => True
  | steps + 1, block => ∃ items next, visit block = .ok (items, some next) ∧ Lasts visit steps next

variable {visit : Nat → Except Error (List Item × Option Nat)} {endless : Error}

theorem walk_of_lasts {steps block : Nat} (lasts : Lasts visit steps block) :
    walk visit endless steps (some block) = .error endless := by
  induction steps generalizing block with
  | zero => rfl
  | succ steps ih =>
    obtain ⟨items, next, visited, later⟩ := lasts
    rw [walk, visited]
    show (walk visit endless steps (some next) >>= _) = _
    rw [ih later]
    rfl

theorem walk_of_not_lasts {steps more block : Nat} (ends : ¬ Lasts visit steps block)
    (enough : steps ≤ more) :
    walk visit endless more (some block) = walk visit endless steps (some block) := by
  induction steps generalizing more block with
  | zero => exact absurd trivial ends
  | succ steps ih =>
    obtain ⟨more, rfl⟩ : ∃ less, more = less + 1 := ⟨more - 1, by omega⟩
    rw [walk, walk]
    cases visited : visit block with
    | error error => rfl
    | ok found =>
      obtain ⟨items, next⟩ := found
      cases next with
      | none =>
        show (walk visit endless more none >>= _) = (walk visit endless steps none >>= _)
        rw [walk, walk]
      | some next =>
        have later : ¬ Lasts visit steps next := fun lasts =>
          ends ⟨items, next, visited, lasts⟩
        show (walk visit endless more (some next) >>= _) =
          (walk visit endless steps (some next) >>= _)
        rw [ih later (by omega)]

theorem Lasts.fewer {steps block : Nat} (lasts : Lasts visit (steps + 1) block) :
    Lasts visit steps block := by
  induction steps generalizing block with
  | zero => trivial
  | succ steps ih =>
    obtain ⟨items, next, visited, later⟩ := lasts
    exact ⟨items, next, visited, ih later⟩

open Classical in
/-- The blocks from which a walk goes on for some steps. -/
noncomputable def lasting (visit : Nat → Except Error (List Item × Option Nat))
    (size steps : Nat) : Finset Nat :=
  (Finset.range size).filter (Lasts visit steps)

theorem mem_lasting {size steps block : Nat} :
    block ∈ lasting visit size steps ↔ block < size ∧ Lasts visit steps block := by
  simp [lasting]

section Inside

variable {size : Nat} (inside : ∀ block items next, visit block = .ok (items, some next) →
  next < size)
include inside

theorem lasting_succ (steps : Nat) : lasting visit size (steps + 1) ⊆ lasting visit size steps :=
  fun _ member => mem_lasting.mpr ⟨(mem_lasting.mp member).1, (mem_lasting.mp member).2.fewer⟩

theorem lasting_stable {steps : Nat}
    (same : lasting visit size (steps + 1) = lasting visit size steps) :
    lasting visit size (steps + 2) = lasting visit size (steps + 1) := by
  refine Finset.Subset.antisymm (lasting_succ inside _) fun block member => ?_
  obtain ⟨below, items, next, visited, later⟩ := mem_lasting.mp member
  have here : next ∈ lasting visit size steps :=
    mem_lasting.mpr ⟨inside block items next visited, later⟩
  exact mem_lasting.mpr ⟨below, items, next, visited, (mem_lasting.mp (same ▸ here)).2⟩

theorem lasting_card (steps : Nat) :
    lasting visit size (steps + 1) = lasting visit size steps ∨
      (lasting visit size steps).card + steps ≤ size := by
  induction steps with
  | zero =>
    right
    have bound : (lasting visit size 0).card ≤ (Finset.range size).card :=
      Finset.card_le_card fun block member => Finset.mem_range.mpr (mem_lasting.mp member).1
    rwa [Finset.card_range] at bound
  | succ steps ih =>
    by_cases same : lasting visit size (steps + 1) = lasting visit size steps
    · exact Or.inl (lasting_stable inside same)
    · right
      have fewer := Finset.card_lt_card
        ((lasting_succ inside steps).ssubset_of_ne same)
      have bound := ih.resolve_left same
      omega

theorem lasting_size (more : Nat) :
    lasting visit size (size + more) = lasting visit size size := by
  have first : lasting visit size (size + 1) = lasting visit size size := by
    rcases lasting_card inside size with same | bound
    · exact same
    · have none : lasting visit size size = ∅ := Finset.card_eq_zero.mp (by omega)
      refine Finset.Subset.antisymm (lasting_succ inside _) ?_
      rw [none]
      exact Finset.empty_subset _
  have step (more : Nat) : lasting visit size (size + more + 1) =
      lasting visit size (size + more) := by
    induction more with
    | zero => exact first
    | succ more ih => exact lasting_stable inside ih
  induction more with
  | zero => rfl
  | succ more ih => exact (step more).trans ih

/-- **As many steps as there are blocks** are enough for a walk that ends. -/
theorem walk_fuel {start : Option Nat} (within : ∀ block, start = some block → block < size)
    {more : Nat} (enough : size ≤ more) :
    walk visit endless more start = walk visit endless size start := by
  cases start with
  | none => cases more <;> cases size <;> rfl
  | some block =>
    by_cases lasts : Lasts visit size block
    · obtain ⟨extra, rfl⟩ : ∃ extra, more = size + extra := ⟨more - size, by omega⟩
      have member : block ∈ lasting visit size (size + extra) := by
        rw [lasting_size inside]
        exact mem_lasting.mpr ⟨within block rfl, lasts⟩
      rw [walk_of_lasts lasts, walk_of_lasts (mem_lasting.mp member).2]
    · exact walk_of_not_lasts lasts enough

end Inside

/-- **Visits that agree below a limit** give the same walk. -/
theorem walk_congr {visit' : Nat → Except Error (List Item × Option Nat)} {size : Nat}
    (inside : ∀ block items next, visit block = .ok (items, some next) → next < size)
    (same : ∀ block < size, visit' block = visit block) {start : Option Nat}
    (within : ∀ block, start = some block → block < size) (fuel : Nat) :
    walk visit' endless fuel start = walk visit endless fuel start := by
  induction fuel generalizing start with
  | zero => cases start <;> rfl
  | succ fuel ih =>
    cases start with
    | none => rfl
    | some block =>
      rw [walk, walk, same block (within block rfl)]
      cases visited : visit block with
      | error error => rfl
      | ok found =>
        have later : ∀ next, found.2 = some next → next < size := fun next named =>
          inside block found.1 next (by rw [visited, ← named])
        show (walk visit' endless fuel found.2 >>= _) = (walk visit endless fuel found.2 >>= _)
        rw [ih later]

end Walks

/-! ### Pointers inside -/

section Bounds

variable {Kind Item : Type} [DecidableEq Kind]

/-- The link of a page, and what its items name, are below a limit. -/
structure PageWithin (bounded : Nat → Item → Prop) (limit : Nat) (page : Page Kind Item) :
    Prop where
  next : ∀ next, page.next = some next → next < limit
  items : ∀ item ∈ page.items, bounded limit item

def Within (bounded : Nat → Item → Prop) (pages : List (Page Kind Item)) : Prop :=
  ∀ page ∈ pages, PageWithin bounded pages.length page

def Rising (bounded : Nat → Item → Prop) : Prop :=
  ∀ item limit more, limit ≤ more → bounded limit item → bounded more item

variable {bounded : Nat → Item → Prop} {kind : Kind} {pages changed : List (Page Kind Item)}
  {page : Page Kind Item} {item : Item} {limit : Nat}

theorem PageWithin.mono (rising : Rising bounded) (within : PageWithin bounded limit page)
    {more : Nat} (above : limit ≤ more) : PageWithin bounded more page :=
  ⟨fun next named => (within.next next named).trans_le above, fun item member =>
    rising item _ _ above (within.items item member)⟩

theorem pageWithin_empty (kind : Kind) (limit : Nat) :
    PageWithin bounded limit (emptyPage kind : Page Kind Item) :=
  ⟨fun _ named => (nomatch named), fun _ member => (nomatch member)⟩

theorem pageWithin_blank (limit : Nat) :
    PageWithin bounded limit (blankPage : Page Kind Item) :=
  ⟨fun _ named => (nomatch named), fun _ member => (nomatch member)⟩

theorem PageWithin.addItem (within : PageWithin bounded limit page) (held : bounded limit item) :
    PageWithin bounded limit { page with items := page.items ++ [item] } := by
  refine ⟨within.next, fun other member => ?_⟩
  rcases List.mem_append.mp member with old | new
  · exact within.items other old
  · rwa [List.mem_singleton.mp new]

theorem PageWithin.link (within : PageWithin bounded limit page) {next : Nat}
    (below : next < limit) : PageWithin bounded limit { page with next := some next } :=
  ⟨fun _ named => Option.some.inj named ▸ below, within.items⟩

theorem Within.at (within : Within bounded pages) {block : Nat}
    (there : pages[block]? = some page) : PageWithin bounded pages.length page :=
  within page (List.mem_of_getElem? there)

theorem Within.append (rising : Rising bounded) (within : Within bounded pages)
    {more : List (Page Kind Item)}
    (new : ∀ page ∈ more, PageWithin bounded (pages ++ more).length page) :
    Within bounded (pages ++ more) := by
  intro page member
  rcases List.mem_append.mp member with old | added
  · exact (within page old).mono rising (by rw [List.length_append]; omega)
  · exact new page added

theorem Within.set (within : Within bounded pages) (block : Nat)
    (new : PageWithin bounded pages.length page) : Within bounded (pages.set block page) := by
  intro other member
  rw [List.length_set]
  rcases List.mem_or_eq_of_mem_set member with old | rfl
  · exact within other old
  · exact new

/-! ### Appends -/

variable {fits : List Item → Item → Bool} {logged : Bool}

theorem appendAt_within (rising : Rising bounded) {before : List (Page Kind Item)}
    (within : Within bounded pages) (within' : Within bounded before)
    (grown : before.length ≤ pages.length) {tail : Nat} (held : bounded pages.length item) :
    Yields (fun refused => Within bounded refused.pages ∧ before.length ≤ refused.pages.length)
      (fun result => Within bounded result.1 ∧ pages.length ≤ result.1.length ∧
        result.2 < result.1.length)
      (appendAt fits logged kind before pages tail item) := by
  unfold appendAt
  cases there : pages[tail]? with
  | none => exact ⟨within, grown⟩
  | some page =>
    have inside := (List.getElem?_eq_some_iff.mp there).1
    have linked : Within bounded (pages.set tail { page with next := some pages.length } ++
        [⟨some kind, [item], none⟩]) ∧
        Within bounded (pages.set tail { page with next := some pages.length } ++
          [emptyPage kind]) := by
      have link : PageWithin bounded (pages.length + 1) { page with next := some pages.length } :=
        ((within.at there).mono rising (Nat.le_succ _)).link (Nat.lt_succ_self _)
      have old (other : Page Kind Item)
          (member : other ∈ pages.set tail { page with next := some pages.length }) :
          PageWithin bounded (pages.length + 1) other := by
        rcases List.mem_or_eq_of_mem_set member with kept | rfl
        · exact (within other kept).mono rising (Nat.le_succ _)
        · exact link
      have new : PageWithin bounded (pages.length + 1) (⟨some kind, [item], none⟩ : Page Kind Item) :=
        (pageWithin_empty kind _).addItem (rising item _ _ (Nat.le_succ _) held)
      constructor
      all_goals
        intro other member
        rw [List.length_append, List.length_set]
        rcases List.mem_append.mp member with kept | added
        · exact old other kept
        · rw [List.mem_singleton.mp added]
          first | exact new | exact pageWithin_empty kind _
    dsimp only
    split_ifs with wrong room fresh
    · exact ⟨within, grown⟩
    · refine ⟨within.set tail ((within.at there).addItem held), ?_, ?_⟩ <;>
        rw [List.length_set]
      exact inside
    · refine ⟨linked.1, ?_, ?_⟩ <;> rw [List.length_append, List.length_set] <;>
        simp
    · refine ⟨within'.append rising fun other member => ?_, by rw [List.length_append]; omega⟩
      rw [List.eq_of_mem_replicate member]
      exact pageWithin_blank _
    · refine ⟨linked.2, ?_⟩
      show before.length ≤ List.length _
      rw [List.length_append, List.length_set]
      omega

theorem chainTail_inside {fuel start tail : Nat} (found : chainTail pages fuel start = some tail) :
    start < pages.length := by
  cases fuel with
  | zero => cases found
  | succ fuel =>
    rw [chainTail] at found
    cases there : pages[start]? with
    | none =>
      rw [there] at found
      cases found
    | some page => exact (List.getElem?_eq_some_iff.mp there).1

/-- **An append** keeps the pointers inside, also where it is refused. -/
theorem appendTuple_within (rising : Rising bounded) (within : Within bounded pages)
    (start : Option Nat) (held : bounded pages.length item) :
    Yields (fun refused => Within bounded refused.pages ∧ pages.length ≤ refused.pages.length)
      (fun result => Within bounded result.pages ∧ pages.length ≤ result.pages.length ∧
        result.start < result.pages.length ∧ result.insertBlock < result.pages.length)
      (appendTuple fits logged kind pages start item) := by
  unfold appendTuple
  cases start with
  | none =>
    have fresh : Within bounded (pages ++ [emptyPage kind]) :=
      within.append rising fun other member => by
        rw [List.mem_singleton.mp member]
        exact pageWithin_empty kind _
    have longer : (pages ++ [(emptyPage kind : Page Kind Item)]).length = pages.length + 1 := by simp
    refine Yields.bind (appendAt_within rising fresh within (by omega)
      (rising item _ _ (by omega) held)) fun result ⟨kept, length, inside⟩ => ?_
    refine ⟨kept, ?_, ?_, inside⟩ <;> dsimp only <;> omega
  | some start =>
    dsimp only
    cases found : chainTail pages pages.length start with
    | none => exact ⟨within, Nat.le_refl _⟩
    | some tail =>
      have inside := chainTail_inside found
      refine Yields.bind (appendAt_within rising within within (Nat.le_refl _) held)
        fun result ⟨kept, length, placed⟩ => ?_
      exact ⟨kept, length, by dsimp only; omega, placed⟩

/-! ### Reading what has grown -/

def visitChain (kind : Kind) (pages : List (Page Kind Item)) (block : Nat) :
    Except ChainError (List Item × Option Nat) :=
  match pages[block]? with
  | none => .error .absentBlock
  | some page => if page.kind ≠ some kind then .error .unexpectedKind else .ok (page.items, page.next)

theorem readChain_eq_walk (fuel : Nat) (start : Option Nat) :
    readChain kind pages fuel start = walk (visitChain kind pages) .endless fuel start := by
  induction fuel generalizing start with
  | zero => cases start <;> rfl
  | succ fuel ih =>
    cases start with
    | none => rfl
    | some block =>
      rw [readChain, walk, visitChain]
      cases pages[block]? with
      | none => rfl
      | some page =>
        dsimp only
        split_ifs
        · rfl
        · rw [ih]
          rfl

theorem visitChain_inside (within : Within bounded pages) (block : Nat) (items : List Item)
    (next : Nat) (visited : visitChain kind pages block = .ok (items, some next)) :
    next < pages.length := by
  unfold visitChain at visited
  cases there : pages[block]? with
  | none =>
    rw [there] at visited
    cases visited
  | some page =>
    rw [there] at visited
    dsimp only at visited
    split_ifs at visited
    exact (within.at there).next next (congrArg Prod.snd (Except.ok.inj visited))

/-- **A chain reads the same** once the relation has grown. -/
theorem readChain_extended (within : Within bounded pages) (kept : KeptOutside [] pages changed)
    {start : Option Nat} (inside : ∀ block, start = some block → block < pages.length) :
    readChain kind changed changed.length start = readChain kind pages pages.length start := by
  have visits : ∀ block < pages.length,
      visitChain kind changed block = visitChain kind pages block := fun block below => by
    rw [visitChain, visitChain, kept.2 block below (List.not_mem_nil)]
  rw [readChain_eq_walk, readChain_eq_walk,
    walk_congr (visitChain_inside within) visits inside,
    walk_fuel (visitChain_inside within) inside kept.1]

theorem readChain_bounded (within : Within bounded pages) {fuel : Nat} {start : Option Nat}
    {items : List Item} (read : readChain kind pages fuel start = .ok items) :
    ∀ item ∈ items, bounded pages.length item := by
  induction fuel generalizing start items with
  | zero =>
    cases start with
    | none =>
      rw [← Except.ok.inj read]
      exact fun _ absent => nomatch absent
    | some block => cases read
  | succ fuel ih =>
    cases start with
    | none =>
      rw [← Except.ok.inj read]
      exact fun _ absent => nomatch absent
    | some block =>
      rw [readChain] at read
      cases there : pages[block]? with
      | none =>
        rw [there] at read
        cases read
      | some page =>
        rw [there] at read
        dsimp only at read
        split_ifs at read
        obtain ⟨later, readLater, whole⟩ := bind_ok read
        intro item member
        rw [← Except.ok.inj whole] at member
        rcases List.mem_append.mp member with here | after
        · exact (within.at there).items item here
        · exact ih readLater item after

end Bounds

end TurboHybrid.Library
