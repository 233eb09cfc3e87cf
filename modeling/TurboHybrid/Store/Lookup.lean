/-
**Lookups in the pages of the base.**

The metadata names the first page of each chain, and a lexicon entry names the tuples of its term.
A reader follows these pointers, which all stay inside the relation.

* `StoreItem.Bounded`: the blocks an item names;
* `loadDocLens`, `loadLexicon`: what a reader of a chain gets;
* `readPostings`, `loadImpactHead`: the chunks of a term and its head, each linked to the next;
* `lookupTerm_extended`: a term is looked up with the same result once the relation has grown.
-/
import TurboHybrid.Library.PageBounds
import TurboHybrid.Store.Page

set_option linter.unusedSectionVars false

namespace TurboHybrid.Store

open TurboHybrid.Index TurboHybrid.Library TurboHybrid.Query TurboHybrid.Scan

variable {R : Type}

/-! ### Pointers -/

/-- A reference, if there is one, is to a block below a limit. -/
def RefBelow (limit : Nat) (place : Option ItemRef) : Prop :=
  ∀ there, place = some there → there.blkno < limit

/-- A chain start, if there is one, is a block below a limit. -/
def StartBelow (limit : Nat) (start : Option BlockNumber) : Prop :=
  ∀ block, start = some block → block < limit

def placeOf (place : Nat × Nat) : ItemRef := ⟨place.1, place.2⟩

def StoreItem.Bounded (limit : Nat) : StoreItem R → Prop
  | .lexicon tuple =>
    RefBelow limit tuple.postings ∧ RefBelow limit tuple.blockMax ∧ RefBelow limit tuple.impact
  | .postings tuple => RefBelow limit (tuple.next.map placeOf)
  | .impact tuple => RefBelow limit tuple.next
  | .deltaDirectory directory => ∀ bucket ∈ directory,
    StartBelow limit bucket.startBlkno ∧ StartBelow limit bucket.tailBlkno
  | _ => True

theorem RefBelow.mono {limit more : Nat} {place : Option ItemRef} (below : RefBelow limit place)
    (above : limit ≤ more) : RefBelow more place :=
  fun there named => (below there named).trans_le above

theorem StartBelow.mono {limit more : Nat} {start : Option BlockNumber}
    (below : StartBelow limit start) (above : limit ≤ more) : StartBelow more start :=
  fun block named => Nat.lt_of_lt_of_le (below block named) above

theorem refBelow_none (limit : Nat) : RefBelow limit none := fun _ named => nomatch named

theorem startBelow_none (limit : Nat) : StartBelow limit none := fun _ named => nomatch named

theorem storeItem_rising : Rising (StoreItem.Bounded (R := R)) := by
  intro item limit more above bounded
  cases item with
  | lexicon tuple =>
    exact ⟨bounded.1.mono above, bounded.2.1.mono above, bounded.2.2.mono above⟩
  | postings tuple => exact RefBelow.mono bounded above
  | impact tuple => exact RefBelow.mono bounded above
  | deltaDirectory directory =>
    exact fun bucket member => ⟨(bounded bucket member).1.mono above,
      (bounded bucket member).2.mono above⟩
  | docStats tuple => trivial
  | blockMax tuple => trivial
  | delta tuple => trivial
  | deltaTerm tuple => trivial

/-- The pointers of the pages of an index stay inside. -/
abbrev PointersInside (pages : List (StorePage R)) : Prop := Within StoreItem.Bounded pages

/-! ### Readers -/

inductive BaseError where
  | docStatsKind
  | lexiconKind
  | lexiconCount
  | postingsPointer
  | postingsTuple
  | postingsPayload
  | absentBlock
  deriving DecidableEq, Repr

def BaseError.message : BaseError → String
  | .docStatsKind => "pgturbohybrid BM25 docstats page has unexpected page kind"
  | .lexiconKind => "pgturbohybrid BM25 lexicon page has unexpected page kind"
  | .lexiconCount => "pgturbohybrid BM25 lexicon has more entries than metadata declares"
  | .postingsPointer => "pgturbohybrid BM25 postings pointer is invalid"
  | .postingsTuple => "pgturbohybrid BM25 postings tuple is invalid"
  | .postingsPayload => "pgturbohybrid BM25 postings payload is invalid"
  | .absentBlock => "could not read block"

def StoreItem.docStats? : StoreItem R → Option DocStatsTuple
  | .docStats tuple => some tuple
  | _ => none

def StoreItem.lexicon? : StoreItem R → Option LexiconItem
  | .lexicon tuple => some tuple
  | _ => none

/-- A chain read for the base; only a page of another kind is told from the chains that do not
end. -/
def readBaseChain (kind : PageKind) (wrongKind : BaseError) (pages : List (StorePage R))
    (start : Option BlockNumber) : Except BaseError (List (StoreItem R)) :=
  match readChain kind pages pages.length start with
  | .ok items => .ok items
  | .error .unexpectedKind => .error wrongKind
  | .error _ => .error .absentBlock

/-- The compaction's reader of the document lengths. -/
def readDocLens (pages : List (StorePage R)) (start : Option BlockNumber) (nodeCount : Nat) :
    Except BaseError (List Nat) := do
  let items ← readBaseChain .docStats .docStatsKind pages start
  return loadDocStats (items.filterMap StoreItem.docStats?) nodeCount

/-- A visit of a page by the query's reader, which ends at a page of another kind. -/
def visitDocStats (pages : List (StorePage R)) (block : BlockNumber) :
    Except ChainError (List (StoreItem R) × Option BlockNumber) :=
  match pages[block]? with
  | none => .error .absentBlock
  | some page => if page.kind ≠ some .docStats then .ok ([], none) else .ok (page.items, page.next)

def loadDocLens (pages : List (StorePage R)) (start : Option BlockNumber) (nodeCount : Nat) :
    Except ChainError (List Nat) := do
  let items ← walk (visitDocStats pages) .endless pages.length start
  return loadDocStats (items.filterMap StoreItem.docStats?) nodeCount

def readLexicon (pages : List (StorePage R)) (start : Option BlockNumber) :
    Except BaseError (List LexiconItem) := do
  let items ← readBaseChain .lexicon .lexiconKind pages start
  return items.filterMap StoreItem.lexicon?

/-- The query's reader of the lexicon, which the metadata gives the length of. -/
def loadLexicon (pages : List (StorePage R)) (start : Option BlockNumber) (termCount : Nat) :
    Except BaseError (List LexiconItem) := do
  let entries ← readLexicon pages start
  if termCount < entries.length then .error .lexiconCount else .ok entries

def readChunk (termId : Nat) (page : StorePage R) (offno : Nat) :
    Except BaseError (List Posting × Option ItemRef) :=
  if page.kind ≠ some .postings ∨ page.items.length < offno then .error .postingsPointer
  else
    match page.items[offno - 1]? with
    | some (.postings tuple) =>
      if tuple.termId ≠ termId then .error .postingsTuple
      else
        match decodePostingsTuple tuple (StoreItem.postings tuple : StoreItem R).size [] with
        | none => .error .postingsPayload
        | some postings => .ok (postings, tuple.next.map placeOf)
    | _ => .error .postingsTuple

/-- The postings of a term, from one chunk to the next. -/
def readPostings (pages : List (StorePage R)) (termId : Nat) :
    Nat → Option ItemRef → Except BaseError (List Posting)
  | 0, _ => .ok []
  | _, none => .ok []
  | chunks + 1, some place =>
    match pages[place.blkno]? with
    | none => .error .absentBlock
    | some page => do
      let chunk ← readChunk termId page place.offno
      let later ← readPostings pages termId chunks chunk.2
      return chunk.1 ++ later

def impactTupleAt (pages : List (StorePage R)) (termId : Nat) (place : ItemRef) :
    Option (ImpactTuple R) :=
  match pages[place.blkno]? with
  | none => none
  | some page =>
    if page.kind ≠ some .impact then none
    else
      match page.items[place.offno - 1]? with
      | some (.impact tuple) => if tuple.termId = termId then some tuple else none
      | _ => none

/-- The stored head of a term, whose tuples each hold an entry at least. -/
def loadImpactHead (pages : List (StorePage R)) (termId : Nat) :
    Nat → Nat → Option ItemRef → List (ImpactTupleEntry R)
  | 0, _, _ => []
  | _, _, none => []
  | tuples + 1, readCount, some place =>
    match impactTupleAt pages termId place with
    | none => []
    | some tuple =>
      tuple.entries.take readCount ++
        loadImpactHead pages termId tuples (readCount - tuple.entries.length) tuple.next

structure TermLookup (R : Type) where
  entry : LexiconItem
  postings : List Posting
  head : List (ImpactTupleEntry R)

def lookupTerm (pages : List (StorePage R)) (lexiconStart : Option BlockNumber)
    (termCount headK : Nat) (termHash : UInt64) (term : Lexeme) :
    Except BaseError (Option (TermLookup R)) := do
  let entries ← loadLexicon pages lexiconStart termCount
  match entries.find? fun entry => entry.termHash == termHash && entry.term == term with
  | none => return none
  | some entry =>
    let postings ← readPostings pages entry.termId entry.postingsChunkCount entry.postings
    let readCount := min entry.impactCount headK
    return some ⟨entry, postings,
      loadImpactHead pages entry.termId readCount readCount entry.impact⟩

/-! ### What has grown reads the same -/

theorem readBaseChain_bounded {kind : PageKind} {wrongKind : BaseError}
    {pages : List (StorePage R)} {start : Option BlockNumber} {items : List (StoreItem R)}
    (inside : PointersInside pages) (read : readBaseChain kind wrongKind pages start = .ok items) :
    ∀ item ∈ items, item.Bounded pages.length := by
  unfold readBaseChain at read
  split at read
  · rename_i found
    rw [← Except.ok.inj read]
    exact readChain_bounded inside found
  · cases read
  · cases read

theorem loadLexicon_below {pages : List (StorePage R)} {start : Option BlockNumber}
    {termCount : Nat} {entries : List LexiconItem} (inside : PointersInside pages)
    (loaded : loadLexicon pages start termCount = .ok entries) :
    ∀ entry ∈ entries, RefBelow pages.length entry.postings ∧
      RefBelow pages.length entry.impact := by
  obtain ⟨read, readAll, checked⟩ := bind_ok loaded
  split_ifs at checked
  obtain ⟨items, itemsRead, filtered⟩ := bind_ok readAll
  intro entry member
  rw [← Except.ok.inj checked, ← Except.ok.inj filtered] at member
  obtain ⟨item, held, same⟩ := List.mem_filterMap.mp member
  have bounded := readBaseChain_bounded inside itemsRead item held
  cases item with
  | lexicon tuple =>
    obtain rfl := Option.some.inj same
    exact ⟨bounded.1, bounded.2.2⟩
  | _ => cases same

section Extended

variable {pages changed : List (StorePage R)} (inside : PointersInside pages)
  (kept : KeptOutside [] pages changed)
include inside kept

theorem block_kept {block : BlockNumber} (below : block < pages.length) :
    changed[block]? = pages[block]? :=
  kept.2 block below (List.not_mem_nil)

theorem readBaseChain_extended {kind : PageKind} {wrongKind : BaseError}
    {start : Option BlockNumber} (below : StartBelow pages.length start) :
    readBaseChain kind wrongKind changed start = readBaseChain kind wrongKind pages start := by
  rw [readBaseChain, readBaseChain, readChain_extended inside kept below]

theorem loadDocLens_extended {start : Option BlockNumber} (below : StartBelow pages.length start)
    (nodeCount : Nat) :
    loadDocLens changed start nodeCount = loadDocLens pages start nodeCount := by
  have within (block : BlockNumber) (items : List (StoreItem R)) (next : BlockNumber)
      (visited : visitDocStats pages block = .ok (items, some next)) : next < pages.length := by
    unfold visitDocStats at visited
    cases there : pages[block]? with
    | none =>
      rw [there] at visited
      cases visited
    | some page =>
      rw [there] at visited
      dsimp only at visited
      split_ifs at visited
      · cases Except.ok.inj visited
      · exact (inside.at there).next next (congrArg Prod.snd (Except.ok.inj visited))
  have visits : ∀ block < pages.length, visitDocStats changed block = visitDocStats pages block :=
    fun block small => by rw [visitDocStats, visitDocStats, block_kept inside kept small]
  rw [loadDocLens, loadDocLens, walk_congr within visits below, walk_fuel within below kept.1]

theorem readDocLens_extended {start : Option BlockNumber} (below : StartBelow pages.length start)
    (nodeCount : Nat) :
    readDocLens changed start nodeCount = readDocLens pages start nodeCount := by
  rw [readDocLens, readDocLens, readBaseChain_extended inside kept below]

theorem loadLexicon_extended {start : Option BlockNumber} (below : StartBelow pages.length start)
    (termCount : Nat) :
    loadLexicon changed start termCount = loadLexicon pages start termCount := by
  rw [loadLexicon, loadLexicon, readLexicon, readLexicon, readBaseChain_extended inside kept below]

theorem readPostings_extended {place : Option ItemRef} (below : RefBelow pages.length place)
    (termId chunks : Nat) :
    readPostings changed termId chunks place = readPostings pages termId chunks place := by
  induction chunks generalizing place with
  | zero => rfl
  | succ chunks ih =>
    cases place with
    | none => rfl
    | some place =>
      rw [readPostings, readPostings, block_kept inside kept (below place rfl)]
      cases there : pages[place.blkno]? with
      | none => rfl
      | some page =>
        dsimp only
        cases read : readChunk termId page place.offno with
        | error error => rfl
        | ok chunk =>
          have later : RefBelow pages.length chunk.2 := by
            unfold readChunk at read
            split_ifs at read
            cases held : page.items[place.offno - 1]? with
            | none =>
              rw [held] at read
              cases read
            | some item =>
              have bounded := (inside.at there).items item (List.mem_of_getElem? held)
              rw [held] at read
              cases item with
              | postings tuple =>
                dsimp only at read
                split_ifs at read
                split at read
                · cases read
                · rw [← Except.ok.inj read]
                  exact bounded
              | _ => cases read
          show (readPostings changed termId chunks chunk.2 >>= _) =
            (readPostings pages termId chunks chunk.2 >>= _)
          rw [ih later]

theorem loadImpactHead_extended {place : Option ItemRef} (below : RefBelow pages.length place)
    (termId tuples readCount : Nat) :
    loadImpactHead changed termId tuples readCount place =
      loadImpactHead pages termId tuples readCount place := by
  induction tuples generalizing place readCount with
  | zero => rfl
  | succ tuples ih =>
    cases place with
    | none => rfl
    | some place =>
      have same : impactTupleAt changed termId place = impactTupleAt pages termId place := by
        rw [impactTupleAt, impactTupleAt, block_kept inside kept (below place rfl)]
      rw [loadImpactHead, loadImpactHead, same]
      cases found : impactTupleAt pages termId place with
      | none => rfl
      | some tuple =>
        have later : RefBelow pages.length tuple.next := by
          unfold impactTupleAt at found
          cases there : pages[place.blkno]? with
          | none =>
            rw [there] at found
            cases found
          | some page =>
            rw [there] at found
            dsimp only at found
            split_ifs at found
            cases held : page.items[place.offno - 1]? with
            | none =>
              rw [held] at found
              cases found
            | some item =>
              have bounded := (inside.at there).items item (List.mem_of_getElem? held)
              rw [held] at found
              cases item with
              | impact tuple' =>
                dsimp only at found
                split_ifs at found
                rw [← Option.some.inj found]
                exact bounded
              | _ => cases found
        dsimp only
        rw [ih later]

/-- **The lookup of a term** gives the same once the relation has grown. -/
theorem lookupTerm_extended {start : Option BlockNumber} (below : StartBelow pages.length start)
    (termCount headK : Nat) (termHash : UInt64) (term : Lexeme) :
    lookupTerm changed start termCount headK termHash term =
      lookupTerm pages start termCount headK termHash term := by
  rw [lookupTerm, lookupTerm, loadLexicon_extended inside kept below]
  cases loaded : loadLexicon pages start termCount with
  | error error => rfl
  | ok entries =>
    show (match entries.find? fun entry => entry.termHash == termHash && entry.term == term with
      | none => _
      | some entry => _) = (match entries.find? fun entry => entry.termHash == termHash &&
        entry.term == term with
      | none => _
      | some entry => _)
    cases found : entries.find? fun entry => entry.termHash == termHash && entry.term == term with
    | none => rfl
    | some entry =>
      obtain ⟨postings, impact⟩ := loadLexicon_below inside loaded entry
        (List.mem_of_find?_eq_some found)
      dsimp only
      rw [readPostings_extended inside kept postings, loadImpactHead_extended inside kept impact]

end Extended

end TurboHybrid.Store
