/-
**Chains of pages.**

A relation is a list of pages, and a block is a position in it. Each page names the next block of
its chain. A tuple is appended at the end of a chain, reached from any of its blocks, on a new page
where the last one has no room.

* `IsChain`: the blocks of a chain, in order;
* `readChain_items`: a reader takes the items of the chain's pages in order;
* `appendTuple_start`, `appendTuple_chain`: an append starts a chain, or adds one item to it;
* `IsChain.frame`: chains without a changed block are as they were.
-/
import Mathlib.Data.List.Nodup
import Mathlib.Data.List.Basic
import Mathlib.Data.List.Perm.Subperm
import Mathlib.Tactic.Common

set_option linter.unusedSectionVars false

namespace TurboHybrid.Library

/-- A page, with no kind until it is initialised. -/
structure Page (Kind Item : Type*) where
  kind : Option Kind
  items : List Item
  next : Option Nat
  deriving DecidableEq, Repr

section

variable {Kind Item : Type*} [DecidableEq Kind]

def blankPage : Page Kind Item := ⟨none, [], none⟩

def emptyPage (kind : Kind) : Page Kind Item := ⟨some kind, [], none⟩

inductive ChainError where
  | unexpectedKind
  | absentBlock
  | endless
  | itemTooLarge
  deriving DecidableEq, Repr

/-! ### Reading and appending -/

def readChain (kind : Kind) (pages : List (Page Kind Item)) :
    Nat → Option Nat → Except ChainError (List Item)
  | _, none => .ok []
  | 0, some _ => .error .endless
  | fuel + 1, some block =>
    match pages[block]? with
    | none => .error .absentBlock
    | some page =>
      if page.kind ≠ some kind then .error .unexpectedKind
      else do
        let later ← readChain kind pages fuel page.next
        return page.items ++ later

def chainTail (pages : List (Page Kind Item)) : Nat → Nat → Option Nat
  | 0, _ => none
  | fuel + 1, block =>
    match pages[block]? with
    | none => none
    | some page =>
      match page.next with
      | none => some block
      | some next => chainTail pages fuel next

structure Appended (Kind Item : Type*) where
  pages : List (Page Kind Item)
  start : Nat
  insertBlock : Nat

structure Refused (Kind Item : Type*) where
  error : ChainError
  pages : List (Page Kind Item)

/-- The append at the last block of a chain. On failure logged writes are taken back: what they
leave is the blank pages by which the relation has grown. -/
def appendAt (fits : List Item → Item → Bool) (logged : Bool) (kind : Kind)
    (before pages : List (Page Kind Item)) (tail : Nat) (item : Item) :
    Except (Refused Kind Item) (List (Page Kind Item) × Nat) :=
  match pages[tail]? with
  | none => .error ⟨.absentBlock, pages⟩
  | some page =>
    if page.kind ≠ some kind then .error ⟨.unexpectedKind, pages⟩
    else if fits page.items item then
      .ok (pages.set tail { page with items := page.items ++ [item] }, tail)
    else
      let linked := pages.set tail { page with next := some pages.length }
      if fits [] item then .ok (linked ++ [⟨some kind, [item], none⟩], pages.length)
      else
        .error ⟨.itemTooLarge,
          if logged then before ++ List.replicate (pages.length + 1 - before.length) blankPage
          else linked ++ [emptyPage kind]⟩

/-- The append of a tuple to the chain a block is of, or to a new chain. -/
def appendTuple (fits : List Item → Item → Bool) (logged : Bool) (kind : Kind)
    (pages : List (Page Kind Item)) (start : Option Nat) (item : Item) :
    Except (Refused Kind Item) (Appended Kind Item) :=
  match start with
  | none => do
    let (changed, block) ←
      appendAt fits logged kind pages (pages ++ [emptyPage kind]) pages.length item
    return ⟨changed, pages.length, block⟩
  | some start =>
    match chainTail pages pages.length start with
    | none => .error ⟨.endless, pages⟩
    | some tail => do
      let (changed, block) ← appendAt fits logged kind pages pages tail item
      return ⟨changed, start, block⟩

/-! ### Chains -/

/-- The blocks of a chain of one kind from its start to its end. -/
def IsChain (kind : Kind) (pages : List (Page Kind Item)) : Option Nat → List Nat → Prop
  | start, [] => start = none
  | start, block :: rest =>
    start = some block ∧ ∃ page, pages[block]? = some page ∧ page.kind = some kind ∧
      IsChain kind pages page.next rest

def blockItems (pages : List (Page Kind Item)) (blocks : List Nat) : List Item :=
  blocks.flatMap fun block => (pages[block]?.map Page.items).getD []

/-- The pages are as they were but for some blocks, and no fewer. -/
def KeptOutside (touched : List Nat) (pages changed : List (Page Kind Item)) : Prop :=
  pages.length ≤ changed.length ∧
    ∀ block < pages.length, block ∉ touched → changed[block]? = pages[block]?

variable {kind : Kind} {pages changed : List (Page Kind Item)} {start : Option Nat}
  {blocks : List Nat} {fits : List Item → Item → Bool} {logged : Bool} {item : Item}

@[simp] theorem blockItems_append (one other : List Nat) :
    blockItems pages (one ++ other) = blockItems pages one ++ blockItems pages other :=
  List.flatMap_append

theorem blockItems_single {block : Nat} {page : Page Kind Item}
    (there : pages[block]? = some page) : blockItems pages [block] = page.items := by
  simp [blockItems, there]

theorem IsChain.page (chain : IsChain kind pages start blocks) {position block : Nat}
    (here : blocks[position]? = some block) :
    ∃ page, pages[block]? = some page ∧ page.kind = some kind ∧
      page.next = blocks[position + 1]? := by
  induction blocks generalizing start position with
  | nil => cases here
  | cons first rest ih =>
    obtain ⟨-, page, there, kind, later⟩ := chain
    cases position with
    | zero =>
      obtain rfl := Option.some.inj here
      refine ⟨page, there, kind, ?_⟩
      cases rest with
      | nil => exact later
      | cons next rest => exact later.1
    | succ position => exact ih later here

theorem IsChain.start_eq (chain : IsChain kind pages start blocks) : start = blocks[0]? := by
  cases blocks with
  | nil => exact chain
  | cons first rest => exact chain.1

theorem IsChain.lt (chain : IsChain kind pages start blocks) {block : Nat}
    (member : block ∈ blocks) : block < pages.length := by
  induction blocks generalizing start with
  | nil => cases member
  | cons first rest ih =>
    obtain ⟨-, page, there, -, later⟩ := chain
    rcases List.mem_cons.mp member with rfl | inside
    · exact (List.getElem?_eq_some_iff.mp there).1
    · exact ih later inside

theorem IsChain.kind_eq (chain : IsChain kind pages start blocks) {block : Nat}
    (member : block ∈ blocks) : ∃ page, pages[block]? = some page ∧ page.kind = some kind := by
  induction blocks generalizing start with
  | nil => cases member
  | cons first rest ih =>
    obtain ⟨-, page, there, kinded, later⟩ := chain
    rcases List.mem_cons.mp member with rfl | inside
    · exact ⟨page, there, kinded⟩
    · exact ih later inside

theorem IsChain.disjoint_of_kind {kind' : Kind} {start' : Option Nat} {other : List Nat}
    (chain : IsChain kind pages start blocks) (chain' : IsChain kind' pages start' other)
    (different : kind ≠ kind') : List.Disjoint blocks other := by
  intro block inside inside'
  obtain ⟨page, there, kinded⟩ := chain.kind_eq inside
  obtain ⟨page', there', kinded'⟩ := chain'.kind_eq inside'
  obtain rfl := Option.some.inj (there.symm.trans there')
  exact different (Option.some.inj (kinded.symm.trans kinded'))

theorem IsChain.unique {other : List Nat} (chain : IsChain kind pages start blocks)
    (chain' : IsChain kind pages start other) : blocks = other := by
  induction blocks generalizing start other with
  | nil =>
    cases other with
    | nil => rfl
    | cons first rest =>
      obtain ⟨named, -⟩ := chain'
      rw [show start = none from chain] at named
      cases named
  | cons first rest ih =>
    obtain ⟨rfl, page, there, -, later⟩ := chain
    cases other with
    | nil => cases (show some first = none from chain')
    | cons first' rest' =>
      obtain ⟨same, page', there', -, later'⟩ := chain'
      obtain rfl := Option.some.inj same
      obtain rfl := Option.some.inj (there.symm.trans there')
      rw [ih later later']

theorem IsChain.suffix {block : Nat} {before after : List Nat}
    (chain : IsChain kind pages start (before ++ block :: after)) :
    IsChain kind pages (some block) (block :: after) := by
  induction before generalizing start with
  | nil =>
    obtain ⟨-, page, there, kinded, later⟩ := chain
    exact ⟨rfl, page, there, kinded, later⟩
  | cons first rest ih =>
    obtain ⟨-, page, -, -, later⟩ := chain
    exact ih later

theorem IsChain.nodup (chain : IsChain kind pages start blocks) : blocks.Nodup := by
  induction blocks generalizing start with
  | nil => exact List.nodup_nil
  | cons first rest ih =>
    have whole := @IsChain.suffix _ _ _ _ _ _ _ [] _ chain
    obtain ⟨-, page, there, kinded, later⟩ := chain
    refine List.nodup_cons.mpr ⟨fun member => ?_, ih later⟩
    obtain ⟨before, after, rfl⟩ := List.append_of_mem member
    have same := whole.unique later.suffix
    have lengths := congrArg List.length same
    simp only [List.length_cons, List.length_append] at lengths
    omega

theorem IsChain.start_mem {first : Nat} (chain : IsChain kind pages (some first) blocks) :
    first ∈ blocks := by
  cases blocks with
  | nil => cases (show some first = none from chain)
  | cons head rest =>
    rw [Option.some.inj chain.1]
    exact List.mem_cons_self

theorem IsChain.length_le (chain : IsChain kind pages start blocks) :
    blocks.length ≤ pages.length := by
  have inside : blocks ⊆ List.range pages.length := fun block member =>
    List.mem_range.mpr (chain.lt member)
  have bound := (List.subperm_of_subset chain.nodup inside).length_le
  rwa [List.length_range] at bound

/-- **A reader of a chain** takes the items of its pages in order. -/
theorem readChain_items (chain : IsChain kind pages start blocks) {fuel : Nat}
    (enough : blocks.length ≤ fuel) :
    readChain kind pages fuel start = .ok (blockItems pages blocks) := by
  induction blocks generalizing start fuel with
  | nil =>
    rw [show start = none from chain]
    cases fuel <;> rfl
  | cons first rest ih =>
    obtain ⟨rfl, page, there, kinded, later⟩ := chain
    obtain ⟨fuel, rfl⟩ : ∃ less, fuel = less + 1 := ⟨fuel - 1, by simp at enough; omega⟩
    rw [readChain, there]
    dsimp only
    rw [if_neg (not_not.mpr kinded), ih later (by simpa using enough)]
    rw [← List.singleton_append, blockItems_append, blockItems_single there]
    rfl

theorem chainTail_getLast {block : Nat} {after : List Nat}
    (chain : IsChain kind pages (some block) (block :: after)) {fuel : Nat}
    (enough : after.length < fuel) :
    chainTail pages fuel block = some ((block :: after).getLast (List.cons_ne_nil _ _)) := by
  induction after generalizing block fuel with
  | nil =>
    obtain ⟨fuel, rfl⟩ : ∃ less, fuel = less + 1 := ⟨fuel - 1, by omega⟩
    obtain ⟨-, page, there, -, ended⟩ := chain
    rw [chainTail, there]
    dsimp only
    rw [show page.next = none from ended]
    rfl
  | cons next rest ih =>
    obtain ⟨fuel, rfl⟩ : ∃ less, fuel = less + 1 := ⟨fuel - 1, by omega⟩
    obtain ⟨-, page, there, -, later⟩ := chain
    have named := later.1
    rw [named] at later
    rw [chainTail, there]
    dsimp only
    rw [named]
    dsimp only
    rw [ih later (by simpa using enough), List.getLast_cons (List.cons_ne_nil _ _)]

theorem IsChain.chainTail_eq (chain : IsChain kind pages start blocks) {block : Nat}
    (member : block ∈ blocks) :
    ∃ before tail, blocks = before ++ [tail] ∧
      chainTail pages pages.length block = some tail := by
  obtain ⟨before, after, rfl⟩ := List.append_of_mem member
  have bound := chain.length_le
  have found := @chainTail_getLast _ _ _ _ _ _ _ chain.suffix pages.length
    (by simp at bound; omega)
  refine ⟨before ++ (block :: after).dropLast, _, ?_, found⟩
  rw [List.append_assoc, List.dropLast_append_getLast]

/-! ### Frames -/

theorem KeptOutside.refl (touched : List Nat) : KeptOutside touched pages pages :=
  ⟨Nat.le_refl _, fun _ _ _ => rfl⟩

theorem KeptOutside.trans {touched : List Nat} {later : List (Page Kind Item)}
    (kept : KeptOutside touched pages changed) (kept' : KeptOutside touched changed later) :
    KeptOutside touched pages later :=
  ⟨Nat.le_trans kept.1 kept'.1, fun block inside outside =>
    (kept'.2 block (by have := kept.1; omega) outside).trans (kept.2 block inside outside)⟩

theorem blockItems_congr (same : ∀ block ∈ blocks, changed[block]? = pages[block]?) :
    blockItems changed blocks = blockItems pages blocks := by
  unfold blockItems
  refine List.flatMap_congr fun block member => ?_
  rw [same block member]

theorem IsChain.congr (chain : IsChain kind pages start blocks)
    (same : ∀ block ∈ blocks, changed[block]? = pages[block]?) :
    IsChain kind changed start blocks := by
  induction blocks generalizing start with
  | nil => exact chain
  | cons first rest ih =>
    obtain ⟨named, page, there, kinded, later⟩ := chain
    refine ⟨named, page, ?_, kinded, ih later fun block member => same block (.tail _ member)⟩
    rw [same first List.mem_cons_self, there]

/-- **A chain away from the changed blocks** is as it was. -/
theorem IsChain.frame {touched : List Nat} (chain : IsChain kind pages start blocks)
    (kept : KeptOutside touched pages changed) (apart : List.Disjoint blocks touched) :
    IsChain kind changed start blocks ∧ blockItems changed blocks = blockItems pages blocks := by
  have same : ∀ block ∈ blocks, changed[block]? = pages[block]? := fun block member =>
    kept.2 block (chain.lt member) fun inside => apart member inside
  exact ⟨chain.congr same, blockItems_congr same⟩

theorem IsChain.replaceTail {before after : List Nat} {tail : Nat} {page : Page Kind Item}
    (chain : IsChain kind pages start (before ++ [tail]))
    (same : ∀ block ∈ before, changed[block]? = pages[block]?)
    (there : changed[tail]? = some page) (kinded : page.kind = some kind)
    (later : IsChain kind changed page.next after) :
    IsChain kind changed start (before ++ tail :: after) := by
  induction before generalizing start with
  | nil =>
    obtain ⟨named, -⟩ := chain
    exact ⟨named, page, there, kinded, later⟩
  | cons first rest ih =>
    obtain ⟨named, old, there', kinded', later'⟩ := chain
    refine ⟨named, old, ?_, kinded', ih later' fun block member => same block (.tail _ member)⟩
    rw [same first List.mem_cons_self, there']

/-! ### Appends -/

theorem set_keptOutside {touched : List Nat} {tail : Nat} (member : tail ∈ touched)
    (page : Page Kind Item) : KeptOutside touched pages (pages.set tail page) := by
  refine ⟨Nat.le_of_eq List.length_set.symm, fun block _ outside => List.getElem?_set_ne ?_⟩
  rintro rfl
  exact outside member

theorem append_keptOutside (touched : List Nat) (more : List (Page Kind Item)) :
    KeptOutside touched pages (pages ++ more) :=
  ⟨by rw [List.length_append]; omega, fun _ inside _ => List.getElem?_append_left inside⟩

theorem IsChain.addItem {before : List Nat} {tail : Nat} {page : Page Kind Item}
    (chain : IsChain kind pages start (before ++ [tail])) (there : pages[tail]? = some page)
    (kinded : page.kind = some kind) (ended : page.next = none) :
    IsChain kind (pages.set tail { page with items := page.items ++ [item] }) start
        (before ++ [tail]) ∧
      blockItems (pages.set tail { page with items := page.items ++ [item] }) (before ++ [tail]) =
        blockItems pages (before ++ [tail]) ++ [item] := by
  have inside := (List.getElem?_eq_some_iff.mp there).1
  have others : ∀ block ∈ before,
      (pages.set tail { page with items := page.items ++ [item] })[block]? = pages[block]? := by
    rintro block member
    refine List.getElem?_set_ne ?_
    rintro rfl
    exact (List.nodup_append.mp chain.nodup).2.2 _ member _ List.mem_cons_self rfl
  have changed := List.getElem?_set_self (a := { page with items := page.items ++ [item] }) inside
  refine ⟨chain.replaceTail others changed kinded ended, ?_⟩
  rw [blockItems_append, blockItems_append, blockItems_congr others, blockItems_single changed,
    blockItems_single there, List.append_assoc]

theorem IsChain.addPage {before : List Nat} {tail : Nat} {page : Page Kind Item}
    (chain : IsChain kind pages start (before ++ [tail])) (there : pages[tail]? = some page)
    (kinded : page.kind = some kind) (items : List Item) :
    IsChain kind (pages.set tail { page with next := some pages.length } ++
          [⟨some kind, items, none⟩]) start (before ++ [tail] ++ [pages.length]) ∧
      blockItems (pages.set tail { page with next := some pages.length } ++
          [⟨some kind, items, none⟩]) (before ++ [tail] ++ [pages.length]) =
        blockItems pages (before ++ [tail]) ++ items := by
  have inside := (List.getElem?_eq_some_iff.mp there).1
  set linked := pages.set tail { page with next := some pages.length } with linked_eq
  have length : linked.length = pages.length := List.length_set
  have others : ∀ block ∈ before,
      (linked ++ [⟨some kind, items, none⟩])[block]? = pages[block]? := by
    rintro block member
    have bound := chain.lt (List.mem_append_left [tail] member)
    rw [List.getElem?_append_left (by omega), linked_eq]
    refine List.getElem?_set_ne ?_
    rintro rfl
    exact (List.nodup_append.mp chain.nodup).2.2 _ member _ List.mem_cons_self rfl
  have changed : (linked ++ [⟨some kind, items, none⟩])[tail]? =
      some { page with next := some pages.length } := by
    rw [List.getElem?_append_left (by omega), linked_eq, List.getElem?_set_self inside]
  have fresh : (linked ++ [⟨some kind, items, none⟩])[pages.length]? =
      some ⟨some kind, items, none⟩ := by
    rw [List.getElem?_append_right (by omega), length, Nat.sub_self]
    rfl
  have linkedTail : blockItems (linked ++ [⟨some kind, items, none⟩]) [tail] =
      blockItems pages [tail] := by
    rw [blockItems_single changed, blockItems_single there]
  constructor
  · rw [List.append_assoc]
    exact chain.replaceTail others changed kinded ⟨rfl, _, fresh, rfl, rfl⟩
  · rw [blockItems_append, blockItems_append, blockItems_congr others, linkedTail,
      blockItems_single fresh, ← blockItems_append]

theorem appendTuple_start (room : fits [] item = true) :
    appendTuple fits logged kind pages none item =
      .ok ⟨pages ++ [⟨some kind, [item], none⟩], pages.length, pages.length⟩ := by
  have fresh : (pages ++ [emptyPage kind])[pages.length]? = some (emptyPage kind) := by
    rw [List.getElem?_append_right (Nat.le_refl _), Nat.sub_self]
    rfl
  rw [appendTuple, appendAt, fresh]
  dsimp only
  rw [if_neg (by simp [emptyPage]), if_pos (by simpa [emptyPage] using room),
    List.set_append_right _ _ (Nat.le_refl _), Nat.sub_self]
  rfl

theorem IsChain.tail_page {before : List Nat} {tail : Nat}
    (chain : IsChain kind pages start (before ++ [tail])) :
    ∃ page, pages[tail]? = some page ∧ page.kind = some kind ∧ page.next = none := by
  obtain ⟨-, page, there, kinded, ended⟩ := @IsChain.suffix _ _ _ _ _ _ _ before [] chain
  exact ⟨page, there, kinded, ended⟩

/-- **An append from a block of a chain** adds the item at its end. -/
theorem appendTuple_chain (logged : Bool) (chain : IsChain kind pages start blocks) {block : Nat}
    (member : block ∈ blocks) (room : fits [] item = true) :
    ∃ result added, appendTuple fits logged kind pages (some block) item = .ok result ∧
      result.start = block ∧ (∀ block ∈ added, pages.length ≤ block) ∧
      IsChain kind result.pages start (blocks ++ added) ∧
      blockItems result.pages (blocks ++ added) = blockItems pages blocks ++ [item] ∧
      result.insertBlock ∈ blocks ++ added ∧ KeptOutside blocks pages result.pages := by
  obtain ⟨before, tail, rfl, found⟩ := chain.chainTail_eq member
  obtain ⟨page, there, kinded, ended⟩ := chain.tail_page
  have last : tail ∈ before ++ [tail] := List.mem_append_right _ List.mem_cons_self
  rw [appendTuple, found]
  dsimp only
  rw [appendAt, there]
  dsimp only
  rw [if_neg (not_not.mpr kinded)]
  by_cases held : fits page.items item = true
  · rw [if_pos held]
    obtain ⟨chained, added⟩ := @IsChain.addItem _ _ _ _ _ _ item _ _ _ chain there kinded ended
    exact ⟨_, [], rfl, rfl, (fun _ absent => nomatch absent), by rwa [List.append_nil],
      by rwa [List.append_nil], List.mem_append_left _ last, set_keptOutside last _⟩
  · rw [if_neg held, if_pos room]
    obtain ⟨chained, added⟩ := chain.addPage there kinded [item]
    refine ⟨_, [pages.length], rfl, rfl, fun block fresh => ?_, chained, added,
      List.mem_append_right _ List.mem_cons_self,
      (set_keptOutside last _).trans (append_keptOutside _ _)⟩
    exact Nat.le_of_eq (List.mem_singleton.mp fresh).symm

/-- **An append that does not fit a page** is refused, and adds no item. -/
theorem appendTuple_refused (logged : Bool) (chain : IsChain kind pages start blocks) {block : Nat}
    (member : block ∈ blocks) (none : ∀ items, fits items item = false) :
    ∃ refused added, appendTuple fits logged kind pages (some block) item = .error refused ∧
      (∀ block ∈ added, pages.length ≤ block) ∧
      IsChain kind refused.pages start (blocks ++ added) ∧
      blockItems refused.pages (blocks ++ added) = blockItems pages blocks ∧
      KeptOutside blocks pages refused.pages := by
  obtain ⟨before, tail, rfl, found⟩ := chain.chainTail_eq member
  obtain ⟨page, there, kinded, ended⟩ := chain.tail_page
  have last : tail ∈ before ++ [tail] := List.mem_append_right _ List.mem_cons_self
  rw [appendTuple, found]
  dsimp only
  rw [appendAt, there]
  dsimp only
  rw [if_neg (not_not.mpr kinded), none, none]
  cases logged with
  | true =>
    obtain ⟨chained, same⟩ := chain.frame (append_keptOutside []
      (List.replicate (pages.length + 1 - pages.length) blankPage)) (List.disjoint_nil_right _)
    exact ⟨_, [], rfl, (fun _ absent => nomatch absent), by rwa [List.append_nil],
      by rwa [List.append_nil], append_keptOutside _ _⟩
  | false =>
    obtain ⟨chained, same⟩ := chain.addPage there kinded []
    rw [List.append_nil] at same
    refine ⟨_, [pages.length], rfl, fun block fresh => ?_, chained, same,
      (set_keptOutside last _).trans (append_keptOutside _ _)⟩
    exact Nat.le_of_eq (List.mem_singleton.mp fresh).symm

theorem appendTuple_start_refused (kind : Kind) (pages : List (Page Kind Item)) (logged : Bool)
    (none : ∀ items, fits items item = false) :
    ∃ refused, appendTuple fits logged kind pages Option.none item = .error refused ∧
      KeptOutside [] pages refused.pages := by
  have fresh : (pages ++ [emptyPage kind])[pages.length]? = some (emptyPage kind) := by
    rw [List.getElem?_append_right (Nat.le_refl _), Nat.sub_self]
    rfl
  rw [appendTuple, appendAt, fresh]
  dsimp only
  rw [if_neg (by simp [emptyPage]), none, none]
  refine ⟨_, rfl, ?_⟩
  cases logged with
  | true => exact append_keptOutside _ _
  | false =>
    rw [List.set_append_right _ _ (Nat.le_refl _)]
    dsimp only
    rw [if_neg Bool.false_ne_true, List.append_assoc]
    exact append_keptOutside _ _

/-- Where an append starts looking for the end of a chain: at one of its blocks, or nowhere if it
has none. -/
structure AppendFrom (position : Option Nat) (blocks : List Nat) : Prop where
  empty : position = none → blocks = []
  inside : ∀ block, position = some block → block ∈ blocks

/-- **An append to a chain** adds one item to it, and changes no other page. -/
theorem appendTuple_spec (logged : Bool) {position : Option Nat} (chain : IsChain kind pages start blocks)
    (placed : AppendFrom position blocks) (room : fits [] item = true) :
    ∃ result added, appendTuple fits logged kind pages position item = .ok result ∧
      (∀ block ∈ added, pages.length ≤ block) ∧
      IsChain kind result.pages (some (start.getD result.start)) (blocks ++ added) ∧
      blockItems result.pages (blocks ++ added) = blockItems pages blocks ++ [item] ∧
      result.insertBlock ∈ blocks ++ added ∧ KeptOutside blocks pages result.pages := by
  cases position with
  | none =>
    obtain rfl := placed.empty rfl
    obtain rfl : start = none := chain
    have fresh : (pages ++ [(⟨some kind, [item], none⟩ : Page Kind Item)])[pages.length]? =
        some ⟨some kind, [item], none⟩ := by
      rw [List.getElem?_append_right (Nat.le_refl _), Nat.sub_self]
      rfl
    refine ⟨_, [pages.length], appendTuple_start room, fun block member => ?_,
      ⟨rfl, _, fresh, rfl, rfl⟩, blockItems_single fresh, List.mem_cons_self,
      append_keptOutside _ _⟩
    exact Nat.le_of_eq (List.mem_singleton.mp member).symm
  | some block =>
    have member := placed.inside block rfl
    obtain ⟨first, rfl⟩ : ∃ first, start = some first := by
      cases start with
      | some first => exact ⟨first, rfl⟩
      | none =>
        cases blocks with
        | nil => cases member
        | cons head rest => cases chain.1
    obtain ⟨result, added, done, -, fresh, chained, items, inserted, kept⟩ :=
      appendTuple_chain logged chain member room
    exact ⟨result, added, done, fresh, chained, items, inserted, kept⟩

/-- **An append that fits no page** is refused, and adds no item. -/
theorem appendTuple_spec_refused (logged : Bool) {position : Option Nat} (chain : IsChain kind pages start blocks)
    (placed : AppendFrom position blocks) (large : ∀ items, fits items item = false) :
    ∃ refused added, appendTuple fits logged kind pages position item = .error refused ∧
      IsChain kind refused.pages start (blocks ++ added) ∧
      blockItems refused.pages (blocks ++ added) = blockItems pages blocks ∧
      KeptOutside blocks pages refused.pages := by
  cases position with
  | none =>
    obtain rfl := placed.empty rfl
    obtain ⟨refused, done, kept⟩ := appendTuple_start_refused kind pages logged large
    exact ⟨refused, [], done, chain, rfl, kept⟩
  | some block =>
    obtain ⟨refused, added, done, -, chained, items, kept⟩ :=
      appendTuple_refused logged chain (placed.inside block rfl) large
    exact ⟨refused, added, done, chained, items, kept⟩

end

end TurboHybrid.Library
