/-
**Chains of full pages.**

Where the items of a chain have one size, each page but the last is full, and the page of an item
follows from its position.

* `packed_getElem`: the item at a position is on the page that the position divided by the page size
  names;
* `appendTuple_packed`: an append keeps the pages so.
-/
import TurboHybrid.Library.PageChain
import Mathlib.Order.Nat

set_option linter.unusedSectionVars false

namespace TurboHybrid.Library

section

variable {Kind Item : Type*} [DecidableEq Kind] {kind : Kind} {size : Nat}
  {pages changed : List (Page Kind Item)} {start : Option Nat} {blocks : List Nat} {item : Item}
  {fits : List Item → Item → Bool}

/-- Each page but the last is full, and the last is not empty. -/
def Packed (size : Nat) (pages : List (Page Kind Item)) : List Nat → Prop
  | [] => True
  | [last] => ∃ page, pages[last]? = some page ∧ 0 < page.items.length ∧ page.items.length ≤ size
  | block :: next :: rest =>
    (∃ page, pages[block]? = some page ∧ page.items.length = size) ∧
      Packed size pages (next :: rest)

theorem Packed.congr (packed : Packed size pages blocks)
    (same : ∀ block ∈ blocks, changed[block]? = pages[block]?) : Packed size changed blocks := by
  induction blocks with
  | nil => trivial
  | cons block rest ih =>
    cases rest with
    | nil =>
      obtain ⟨page, here, some⟩ := packed
      exact ⟨page, (same block List.mem_cons_self).trans here, some⟩
    | cons next rest =>
      obtain ⟨⟨page, here, full⟩, later⟩ := packed
      refine ⟨⟨page, (same block List.mem_cons_self).trans here, full⟩, ih later ?_⟩
      intro other member
      exact same other (List.mem_cons_of_mem _ member)

/-- **The page of an item** is the one its position names. -/
theorem packed_getElem (packed : Packed size pages blocks) (position : Nat) :
    (blockItems pages blocks)[position]? =
      (blocks[position / size]?.bind fun block => pages[block]?.bind fun page =>
        page.items[position % size]?) := by
  induction blocks generalizing position with
  | nil => rfl
  | cons block rest ih =>
    have split : blockItems pages (block :: rest) =
        blockItems pages [block] ++ blockItems pages rest := blockItems_append [block] rest
    cases rest with
    | nil =>
      obtain ⟨page, here, positive, short⟩ := packed
      rw [blockItems_single here]
      rcases Nat.lt_or_ge position size with inside | behind
      · rw [Nat.div_eq_of_lt inside, Nat.mod_eq_of_lt inside, List.getElem?_cons_zero,
          Option.bind_some, here, Option.bind_some]
      · have later : 0 < position / size := Nat.div_pos behind (positive.trans_le short)
        rw [List.getElem?_eq_none (short.trans behind),
          List.getElem?_eq_none (show [block].length ≤ position / size from later)]
        rfl
    | cons next rest =>
      obtain ⟨⟨page, here, full⟩, later⟩ := packed
      rw [split, blockItems_single here]
      rcases Nat.lt_or_ge position size with inside | behind
      · rw [List.getElem?_append_left (full ▸ inside), Nat.div_eq_of_lt inside,
          Nat.mod_eq_of_lt inside, List.getElem?_cons_zero, Option.bind_some, here,
          Option.bind_some]
      · rw [List.getElem?_append_right (full ▸ behind), full, ih later]
        rcases Nat.eq_zero_or_pos size with rfl | positive
        · -- Pages without room: the last one is not empty.
          exfalso
          clear ih split here full
          induction rest generalizing next with
          | nil =>
            obtain ⟨last, -, some, none⟩ := later
            omega
          | cons after rest more => exact more _ later.2
        · obtain ⟨less, rfl⟩ : ∃ less, position = less + size := ⟨position - size, by omega⟩
          rw [Nat.add_sub_cancel, Nat.add_div_right _ positive, Nat.add_mod_right,
            List.getElem?_cons_succ]

theorem packed_length (packed : Packed size pages blocks) :
    (blockItems pages blocks).length ≤ blocks.length * size ∧
      (blocks ≠ [] → (blocks.length - 1) * size < (blockItems pages blocks).length) := by
  induction blocks with
  | nil => exact ⟨Nat.zero_le _, fun none => absurd rfl none⟩
  | cons block rest ih =>
    have split : blockItems pages (block :: rest) =
        blockItems pages [block] ++ blockItems pages rest := blockItems_append [block] rest
    cases rest with
    | nil =>
      obtain ⟨page, here, positive, short⟩ := packed
      rw [blockItems_single here]
      refine ⟨?_, fun _ => ?_⟩
      · simpa using short
      · simpa using positive
    | cons next rest =>
      obtain ⟨⟨page, here, full⟩, later⟩ := packed
      obtain ⟨most, least⟩ := ih later
      have some := least (List.cons_ne_nil _ _)
      rw [split, List.length_append, blockItems_single here, full]
      simp only [List.length_cons, Nat.add_sub_cancel] at most some ⊢
      constructor
      · rw [Nat.succ_mul (rest.length + 1)]
        omega
      · intro _
        rw [Nat.succ_mul]
        omega

theorem Packed.short (packed : Packed size pages blocks) {block : Nat} (member : block ∈ blocks)
    {page : Page Kind Item} (here : pages[block]? = some page) : page.items.length ≤ size := by
  induction blocks with
  | nil => cases member
  | cons first rest ih =>
    cases rest with
    | nil =>
      obtain rfl := List.mem_singleton.mp member
      obtain ⟨found, there, -, short⟩ := packed
      obtain rfl := Option.some.inj (here.symm.trans there)
      exact short
    | cons next rest =>
      obtain ⟨⟨found, there, full⟩, later⟩ := packed
      rcases List.mem_cons.mp member with rfl | inside
      · obtain rfl := Option.some.inj (here.symm.trans there)
        exact full.le
      · exact ih later inside

/-! ### Appends -/

theorem Packed.last {before : List Nat} {tail : Nat} (packed : Packed size pages (before ++ [tail])) :
    ∃ page, pages[tail]? = some page ∧ 0 < page.items.length ∧ page.items.length ≤ size := by
  induction before with
  | nil => exact packed
  | cons block before ih =>
    cases before with
    | nil => exact packed.2
    | cons next before => exact ih packed.2

theorem Packed.replaceLast {before : List Nat} {tail : Nat} {page : Page Kind Item}
    (packed : Packed size pages (before ++ [tail]))
    (same : ∀ block ∈ before, changed[block]? = pages[block]?)
    (here : changed[tail]? = some page) (positive : 0 < page.items.length)
    (short : page.items.length ≤ size) : Packed size changed (before ++ [tail]) := by
  induction before with
  | nil => exact ⟨page, here, positive, short⟩
  | cons block before ih =>
    have kept := same block List.mem_cons_self
    have later : ∀ block ∈ before, changed[block]? = pages[block]? :=
      fun other member => same other (List.mem_cons_of_mem _ member)
    cases before with
    | nil =>
      obtain ⟨⟨old, there, full⟩, -⟩ := packed
      exact ⟨⟨old, kept.trans there, full⟩, page, here, positive, short⟩
    | cons next before =>
      obtain ⟨⟨old, there, full⟩, rest⟩ := packed
      exact ⟨⟨old, kept.trans there, full⟩, ih rest later⟩

theorem Packed.addPage {before : List Nat} {tail fresh : Nat} {page last : Page Kind Item}
    (packed : Packed size pages (before ++ [tail]))
    (same : ∀ block ∈ before, changed[block]? = pages[block]?)
    (here : changed[tail]? = some page) (full : page.items.length = size)
    (there : changed[fresh]? = some last) (positive : 0 < last.items.length)
    (short : last.items.length ≤ size) : Packed size changed (before ++ [tail] ++ [fresh]) := by
  induction before with
  | nil => exact ⟨⟨page, here, full⟩, last, there, positive, short⟩
  | cons block before ih =>
    have kept := same block List.mem_cons_self
    have later : ∀ block ∈ before, changed[block]? = pages[block]? :=
      fun other member => same other (List.mem_cons_of_mem _ member)
    cases before with
    | nil =>
      obtain ⟨⟨old, found, oldFull⟩, -⟩ := packed
      exact ⟨⟨old, kept.trans found, oldFull⟩, ⟨page, here, full⟩, last, there, positive, short⟩
    | cons next before =>
      obtain ⟨⟨old, found, oldFull⟩, rest⟩ := packed
      exact ⟨⟨old, kept.trans found, oldFull⟩, ih rest later⟩

structure PackedAppend (kind : Kind) (size : Nat) (pages : List (Page Kind Item))
    (start : Option Nat) (blocks : List Nat) (item : Item) (result : Appended Kind Item)
    (added : List Nat) : Prop where
  fresh : added = [] ∨ added = [pages.length]
  chain : IsChain kind result.pages (some (start.getD result.start)) (blocks ++ added)
  items : blockItems result.pages (blocks ++ added) = blockItems pages blocks ++ [item]
  inserted : result.insertBlock ∈ blocks ++ added
  kept : KeptOutside blocks pages result.pages
  packed : Packed size result.pages (blocks ++ added)
  created : start = none → result.start = pages.length
  others : ∀ (block : Nat) (page : Page Kind Item), result.pages[block]? = some page →
    page.kind = some kind → block ∈ blocks ++ added ∨ pages[block]? = some page

/-- **An append keeps the pages full**: the item goes to the last page, or to a new one when that
is full. -/
theorem appendTuple_packed (logged : Bool)
    (room : ∀ items item, fits items item = decide (items.length < size))
    (positive : 0 < size) {position : Option Nat} (chain : IsChain kind pages start blocks)
    (packed : Packed size pages blocks) (placed : AppendFrom position blocks) :
    ∃ result added, appendTuple fits logged kind pages position item = .ok result ∧
      PackedAppend kind size pages start blocks item result added := by
  have empty : fits [] item = true := by rw [room]; exact decide_eq_true positive
  cases position with
  | none =>
    obtain rfl := placed.empty rfl
    obtain rfl : start = none := chain
    have fresh : (pages ++ [(⟨some kind, [item], none⟩ : Page Kind Item)])[pages.length]? =
        some ⟨some kind, [item], none⟩ := by
      rw [List.getElem?_append_right (Nat.le_refl _), Nat.sub_self]
      rfl
    refine ⟨_, [pages.length], appendTuple_start empty, Or.inr rfl, ⟨rfl, _, fresh, rfl, rfl⟩,
      blockItems_single fresh, List.mem_cons_self, append_keptOutside _ _,
      ⟨_, fresh, Nat.one_pos, positive⟩, fun _ => rfl, ?_⟩
    intro block page here _
    rcases Nat.lt_or_ge block pages.length with before | behind
    · rw [List.getElem?_append_left before] at here
      exact Or.inr here
    · have inside := (List.getElem?_eq_some_iff.mp here).1
      rw [List.length_append, List.length_singleton] at inside
      obtain rfl : block = pages.length := by omega
      exact Or.inl List.mem_cons_self
  | some block =>
    have member := placed.inside block rfl
    obtain ⟨first, rfl⟩ : ∃ first, start = some first := by
      cases start with
      | some first => exact ⟨first, rfl⟩
      | none =>
        cases blocks with
        | nil => cases member
        | cons head rest => cases chain.1
    obtain ⟨before, tail, rfl, found⟩ := chain.chainTail_eq member
    obtain ⟨page, there, kinded, ended⟩ := chain.tail_page
    obtain ⟨page', again, nonempty, short⟩ := packed.last
    obtain rfl := Option.some.inj (there.symm.trans again)
    have last : tail ∈ before ++ [tail] := List.mem_append_right _ List.mem_cons_self
    have inside := (List.getElem?_eq_some_iff.mp there).1
    have apart : ∀ block ∈ before, block ≠ tail := fun block member =>
      (List.nodup_append.mp chain.nodup).2.2 _ member _ List.mem_cons_self
    rw [appendTuple, found]
    dsimp only
    rw [appendAt, there]
    dsimp only
    rw [if_neg (not_not.mpr kinded), room, empty]
    by_cases held : page.items.length < size
    · rw [if_pos (decide_eq_true held)]
      obtain ⟨chained, added⟩ := @IsChain.addItem _ _ _ _ _ _ item _ _ _ chain there kinded ended
      have others : ∀ block ∈ before,
          (pages.set tail { page with items := page.items ++ [item] })[block]? = pages[block]? :=
        fun block member => List.getElem?_set_ne (apart block member).symm
      refine ⟨_, [], rfl, Or.inl rfl, by rwa [List.append_nil], by rwa [List.append_nil],
        List.mem_append_left _ last, set_keptOutside last _, ?_, (by intro none; cases none), ?_⟩
      · rw [List.append_nil]
        refine packed.replaceLast others (List.getElem?_set_self inside) ?_ ?_
        · exact List.length_pos_iff.mpr (List.append_ne_nil_of_right_ne_nil _ (List.cons_ne_nil _ _))
        · rw [List.length_append, List.length_singleton]
          exact held
      · intro block other here _
        by_cases same : block = tail
        · exact Or.inl (List.mem_append_left _ (same ▸ last))
        · rw [List.getElem?_set_ne (Ne.symm same)] at here
          exact Or.inr here
    · rw [if_neg (by simpa using held), if_pos rfl]
      obtain ⟨chained, added⟩ := chain.addPage there kinded [item]
      set linked := pages.set tail { page with next := some pages.length } with linked_eq
      have length : linked.length = pages.length := List.length_set
      have others : ∀ block ∈ before,
          (linked ++ [(⟨some kind, [item], none⟩ : Page Kind Item)])[block]? = pages[block]? := by
        intro block member
        have bound := chain.lt (List.mem_append_left [tail] member)
        rw [List.getElem?_append_left (by omega), linked_eq]
        exact List.getElem?_set_ne (apart block member).symm
      have changed : (linked ++ [(⟨some kind, [item], none⟩ : Page Kind Item)])[tail]? =
          some { page with next := some pages.length } := by
        rw [List.getElem?_append_left (by omega), linked_eq, List.getElem?_set_self inside]
      have fresh : (linked ++ [(⟨some kind, [item], none⟩ : Page Kind Item)])[pages.length]? =
          some ⟨some kind, [item], none⟩ := by
        rw [List.getElem?_append_right (by omega), length, Nat.sub_self]
        rfl
      refine ⟨_, [pages.length], rfl, Or.inr rfl, chained, added,
        List.mem_append_right _ List.mem_cons_self,
        (set_keptOutside last _).trans (append_keptOutside _ _), ?_, (by intro none; cases none),
        ?_⟩
      · exact packed.addPage others changed (le_antisymm short (not_lt.mp held)) fresh Nat.one_pos
          positive
      · intro block other here _
        by_cases same : block = tail
        · exact Or.inl (List.mem_append_left _ (same ▸ last))
        · rcases Nat.lt_or_ge block pages.length with before | behind
          · rw [List.getElem?_append_left (by omega), linked_eq,
              List.getElem?_set_ne (Ne.symm same)] at here
            exact Or.inr here
          · have within := (List.getElem?_eq_some_iff.mp here).1
            rw [List.length_append, List.length_singleton, length] at within
            obtain rfl : block = pages.length := by omega
            exact Or.inl (List.mem_append_right _ List.mem_cons_self)

end

end TurboHybrid.Library
