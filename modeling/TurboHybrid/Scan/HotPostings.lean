/-
**The cache of hot postings.**

Decoded chunks of frequent terms are kept under the term and the address of their tuple, most
recently used first, up to a number of bytes. A kept chunk is a copy of what its tuple decodes to.

* `Holds`: every entry is the chunk of a tuple that is on the pages;
* `cacheLookup_spec`: what is found is the chunk of the tuple at the address;
* `Holds.store`: a stored chunk, and what the eviction leaves, are again such entries.
-/
import TurboHybrid.Scan.Iterator

set_option linter.unusedSectionVars false

namespace TurboHybrid.Scan.Loading

open TurboHybrid.Index

variable {R : Type*} [Field R] [LinearOrder R] [IsStrictOrderedRing R]

/-! ### Tuples on pages -/

abbrev Address := Nat × Nat

/-- A postings tuple as it is read: its term, whether its encoding is one the cache takes, whether
its payload decodes, its decoded chunk, and the tuple after it. -/
structure StoredTuple (R : Type*) where
  termId : Nat
  cacheable : Bool
  payloadValid : Bool
  chunk : Chunk R
  next : Option Address

/-- What a reader finds at an address: no postings tuple can be there, an unused item, or one. -/
inductive PageItem (R : Type*) where
  | invalid
  | unused
  | tuple (stored : StoredTuple R)

/-- Two settings and the term's document frequency. -/
structure HotPostingsPolicy where
  limitBytes : Nat
  minDf : Nat
  deriving DecidableEq, Repr

structure TermRef where
  termId : Nat
  baseDf : Nat
  deriving DecidableEq, Repr

/-! ### The cache -/

structure HotPostingsKey where
  termId : Nat
  address : Address
  deriving DecidableEq, Repr

structure HotPostingsEntry (R : Type*) where
  key : HotPostingsKey
  chunk : Chunk R
  next : Option Address
  bytes : Nat
  lastUsed : Nat

structure HotPostingsCache (R : Type*) where
  entries : List (HotPostingsEntry R) := []
  bytes : Nat := 0
  evictions : Nat := 0
  clock : Nat := 0

namespace HotPostingsCache

variable (cache : HotPostingsCache R)

def find (key : HotPostingsKey) : Option (HotPostingsEntry R) :=
  cache.entries.find? fun entry => entry.key = key

def lruTouch (entry : HotPostingsEntry R) : HotPostingsCache R :=
  { cache with
    entries := { entry with lastUsed := cache.clock + 1 } ::
      cache.entries.filter fun other => other.key ≠ entry.key
    clock := cache.clock + 1 }

def freeEntry (entry : HotPostingsEntry R) : HotPostingsCache R :=
  { cache with
    entries := cache.entries.filter fun other => other.key ≠ entry.key
    bytes := cache.bytes - min cache.bytes entry.bytes }

/-- Entries from the tail on are dropped while the new one has no room. -/
def evictEntries (limitBytes needed : Nat) :
    List (HotPostingsEntry R) → Nat → Nat → List (HotPostingsEntry R) × Nat × Nat
  | [], bytes, evictions => ([], bytes, evictions)
  | tail :: rest, bytes, evictions =>
    if limitBytes < bytes + needed then
      evictEntries limitBytes needed rest (bytes - min bytes tail.bytes) (evictions + 1)
    else (tail :: rest, bytes, evictions)

def evict (limitBytes needed : Nat) : HotPostingsCache R :=
  let left := evictEntries limitBytes needed cache.entries.reverse cache.bytes cache.evictions
  { cache with entries := left.1.reverse, bytes := left.2.1, evictions := left.2.2 }

end HotPostingsCache

/-- An entry's record, and eight bytes for each posting. -/
def entryBytes (count : Nat) : Nat := 80 + 8 * count

/-- The chunk kept under a key, if the term is one the cache serves. -/
def cacheLookup (policy : HotPostingsPolicy) (term : TermRef) (address : Address)
    (cache : HotPostingsCache R) : Option (HotPostingsEntry R) :=
  if policy.limitBytes = 0 ∨ term.baseDf < policy.minDf then none
  else cache.find ⟨term.termId, address⟩

def cacheEligible (policy : HotPostingsPolicy) (term : TermRef) (tuple : StoredTuple R) : Bool :=
  decide (0 < policy.limitBytes) && decide (policy.minDf ≤ term.baseDf) && tuple.cacheable

def cacheStore (policy : HotPostingsPolicy) (term : TermRef) (address : Address)
    (tuple : StoredTuple R) (loaded : Chunk R) (cache : HotPostingsCache R) : HotPostingsCache R :=
  let key : HotPostingsKey := ⟨term.termId, address⟩
  let needed := entryBytes loaded.postings.length
  if cacheEligible policy term tuple = false ∨ loaded.postings = [] ∨ policy.limitBytes < needed then
    cache
  else
    let freed := match cache.find key with
      | some entry => cache.freeEntry entry
      | none => cache
    let evicted := freed.evict policy.limitBytes needed
    if policy.limitBytes < evicted.bytes + needed then evicted
    else
      { evicted with
        entries := ⟨key, loaded, tuple.next, needed, evicted.clock + 1⟩ :: evicted.entries
        bytes := evicted.bytes + needed
        clock := evicted.clock + 1 }

/-! ### What the entries are -/

section Holds

variable {pages : Address → PageItem R} {cache : HotPostingsCache R} {policy : HotPostingsPolicy}
  {term : TermRef} {address : Address} {tuple : StoredTuple R}

structure Readable (pages : Address → PageItem R) (termId : Nat) (address : Address)
    (tuple : StoredTuple R) : Prop where
  there : pages address = .tuple tuple
  term : tuple.termId = termId
  valid : tuple.payloadValid = true

/-- **The entries are copies** of tuples on the pages. -/
def Holds (pages : Address → PageItem R) (cache : HotPostingsCache R) : Prop :=
  ∀ entry ∈ cache.entries, ∃ tuple, Readable pages entry.key.termId entry.key.address tuple ∧
    tuple.chunk.postings ≠ [] ∧ entry.chunk = loadedChunk tuple.chunk ∧ entry.next = tuple.next

theorem holds_empty (pages : Address → PageItem R) : Holds pages {} :=
  fun _ absurd => by cases absurd

theorem Holds.subset (holds : Holds pages cache) {other : HotPostingsCache R}
    (within : ∀ entry ∈ other.entries, entry ∈ cache.entries) : Holds pages other :=
  fun entry member => holds entry (within entry member)

theorem mem_evictEntries {limitBytes needed : Nat} {entries : List (HotPostingsEntry R)}
    {bytes evictions : Nat} {entry : HotPostingsEntry R}
    (member : entry ∈ (HotPostingsCache.evictEntries limitBytes needed entries bytes evictions).1) :
    entry ∈ entries := by
  induction entries generalizing bytes evictions with
  | nil => exact member
  | cons tail rest ih =>
    unfold HotPostingsCache.evictEntries at member
    split_ifs at member
    · exact List.mem_cons_of_mem _ (ih member)
    · exact member

theorem Holds.evict (holds : Holds pages cache) (limitBytes needed : Nat) :
    Holds pages (cache.evict limitBytes needed) := by
  refine holds.subset fun entry member => ?_
  exact List.mem_reverse.mp (mem_evictEntries (List.mem_reverse.mp member))

theorem Holds.freeEntry (holds : Holds pages cache) (entry : HotPostingsEntry R) :
    Holds pages (cache.freeEntry entry) :=
  holds.subset fun _ member => (List.mem_filter.mp member).1

theorem cacheLookup_mem {entry : HotPostingsEntry R}
    (found : cacheLookup policy term address cache = some entry) :
    entry ∈ cache.entries ∧ entry.key = ⟨term.termId, address⟩ := by
  unfold cacheLookup HotPostingsCache.find at found
  split_ifs at found
  exact ⟨List.mem_of_find?_eq_some found, by simpa using List.find?_some found⟩

/-- **What is found** is the chunk of the tuple at the address. -/
theorem cacheLookup_spec (holds : Holds pages cache) {entry : HotPostingsEntry R}
    (found : cacheLookup policy term address cache = some entry) :
    ∃ tuple, Readable pages term.termId address tuple ∧ tuple.chunk.postings ≠ [] ∧
      entry.chunk = loadedChunk tuple.chunk ∧ entry.next = tuple.next := by
  obtain ⟨member, key⟩ := cacheLookup_mem found
  obtain ⟨tuple, readable, some, same⟩ := holds entry member
  rw [key] at readable
  exact ⟨tuple, readable, some, same⟩

theorem Holds.touch (holds : Holds pages cache) {entry : HotPostingsEntry R}
    (member : entry ∈ cache.entries) : Holds pages (cache.lruTouch entry) := by
  intro other listed
  rcases List.mem_cons.mp listed with rfl | kept
  · exact holds entry member
  · exact holds other (List.mem_filter.mp kept).1

/-- **A stored chunk** is the copy of a tuple, too. -/
theorem Holds.store (holds : Holds pages cache)
    (readable : Readable pages term.termId address tuple) :
    Holds pages (cacheStore policy term address tuple (loadedChunk tuple.chunk) cache) := by
  unfold cacheStore
  extract_lets key needed freed evicted
  have freedHolds : Holds pages freed := by
    unfold freed
    cases cache.find key with
    | none => exact holds
    | some entry => exact holds.freeEntry entry
  have evictedHolds : Holds pages evicted := freedHolds.evict _ _
  split_ifs with refused full
  · exact holds
  · exact evictedHolds
  · intro entry listed
    rcases List.mem_cons.mp listed with rfl | kept
    · refine ⟨tuple, readable, ?_, rfl, rfl⟩
      exact fun none => refused (.inr (.inl none))
    · exact evictedHolds entry kept

end Holds

end TurboHybrid.Scan.Loading
