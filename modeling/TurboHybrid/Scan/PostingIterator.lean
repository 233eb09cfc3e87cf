/-
**Posting iterators as the code steps them.**

The iterator's record holds the decoded postings of one chunk, a position, and the address of the
next tuple; every chunk it loads comes from the cache of hot postings or from the pages. Whatever
the other iterators of the backend do in between, it walks the live postings of its list.

* `loadChunk_spec`: a load gives the same chunk with any cache whose entries are copies of tuples;
* `advanceValid_shows`, `seekTo_shows`: the loops do what the chunk cursors do;
* `stepSystem_represents`: one operation on one of the iterators.
-/
import TurboHybrid.Scan.HotPostings

set_option linter.unusedSectionVars false

namespace TurboHybrid.Scan.Loading

open TurboHybrid.Index

variable {R : Type*} [Field R] [LinearOrder R] [IsStrictOrderedRing R]

/-! ### The iterator -/

/-- The decoded chunk with its header, the position in it, the next tuple, and how many chunks have
been loaded of how many. -/
structure PostingIterator (R : Type*) where
  chunk : Chunk R
  pos : Nat
  next : Option Address
  chunkNo : Nat
  chunkLimit : Nat
  valid : Bool

namespace PostingIterator

def reset (it : PostingIterator R) : PostingIterator R :=
  { it with chunk := { it.chunk with postings := [] }, pos := 0, valid := false }

def loaded (it : PostingIterator R) (chunk : Chunk R) (next : Option Address) :
    PostingIterator R :=
  { it with
    chunk := chunk
    pos := 0
    next := next
    chunkNo := it.chunkNo + 1
    valid := !chunk.postings.isEmpty }

def posting? (it : PostingIterator R) : Option Posting :=
  if it.valid then it.chunk.postings[it.pos]? else none

def nodeId (it : PostingIterator R) : Nat :=
  match it.posting? with
  | some posting => posting.nodeId
  | none => uint32Max

def skip (it : PostingIterator R) (stepOver : Posting → Bool) : PostingIterator R :=
  { it with pos := it.pos + ((it.chunk.postings.drop it.pos).takeWhile stepOver).length }

end PostingIterator

section Loops

variable (pages : Address → PageItem R) (docs : DocState) (policy : HotPostingsPolicy)
  (term : TermRef)

/-- The next chunk, from the cache if there is one that has it, else from its page. -/
def loadChunk (it : PostingIterator R) (cache : Option (HotPostingsCache R)) :
    Except String (Bool × PostingIterator R × Option (HotPostingsCache R)) :=
  match it.next with
  | none => .ok (false, it.reset, cache)
  | some address =>
    if it.chunkLimit ≤ it.chunkNo then .ok (false, it.reset, cache)
    else
      match cache.bind (cacheLookup policy term address) with
      | some entry =>
        let it := it.loaded entry.chunk entry.next
        .ok (it.valid, it, cache.map fun cache => cache.lruTouch entry)
      | none =>
        match pages address with
        | .invalid => .error "pgturbohybrid BM25 postings pointer is invalid"
        | .unused => .ok (false, it.reset, cache)
        | .tuple tuple =>
          if tuple.termId ≠ term.termId then
            .error "pgturbohybrid BM25 postings tuple is invalid"
          else if tuple.payloadValid = false then
            .error "pgturbohybrid BM25 postings payload is invalid"
          else
            let it := it.loaded (loadedChunk tuple.chunk) tuple.next
            .ok (it.valid, it,
              cache.map (cacheStore policy term address tuple (loadedChunk tuple.chunk)))

/-- Over dead postings, through the chunks that are left. When none is left the load fails. -/
def advanceValidLoop :
    Nat → PostingIterator R → Option (HotPostingsCache R) →
      Except String (Bool × PostingIterator R × Option (HotPostingsCache R))
  | left, it, cache =>
    let it := if it.valid then it.skip fun posting => !docs.scorable posting.nodeId else it
    if it.valid && decide (it.pos < it.chunk.postings.length) then .ok (true, it, cache)
    else
      match loadChunk pages policy term it cache with
      | .error message => .error message
      | .ok (false, it, cache) => .ok (false, it, cache)
      | .ok (true, it, cache) =>
        match left with
        | 0 => .ok (false, it, cache)
        | left + 1 => advanceValidLoop left it cache

def advanceValid (it : PostingIterator R) (cache : Option (HotPostingsCache R)) :
    Except String (Bool × PostingIterator R × Option (HotPostingsCache R)) :=
  advanceValidLoop pages docs policy term (it.chunkLimit - it.chunkNo) it cache

def seekToLoop (target : Nat) :
    Nat → PostingIterator R → Option (HotPostingsCache R) →
      Except String (Bool × PostingIterator R × Option (HotPostingsCache R))
  | left, it, cache =>
    if it.valid = false then .ok (false, it, cache)
    else if it.chunk.lastNodeId < target then
      match loadChunk pages policy term it cache with
      | .error message => .error message
      | .ok (false, it, cache) => .ok (false, it, cache)
      | .ok (true, it, cache) =>
        match left with
        | 0 => .ok (false, it, cache)
        | left + 1 => seekToLoop target left it cache
    else
      advanceValid pages docs policy term
        (it.skip fun posting => decide (posting.nodeId < target)) cache

def seekTo (target : Nat) (it : PostingIterator R) (cache : Option (HotPostingsCache R)) :
    Except String (Bool × PostingIterator R × Option (HotPostingsCache R)) :=
  seekToLoop pages docs policy term target (it.chunkLimit - it.chunkNo) it cache

def advancePast (nodeId : Nat) (it : PostingIterator R) (cache : Option (HotPostingsCache R)) :
    Except String (Bool × PostingIterator R × Option (HotPostingsCache R)) :=
  if nodeId = uint32Max then .ok (false, it, cache)
  else seekTo pages docs policy term (nodeId + 1) it cache

end Loops

/-! ### Posting lists on pages -/

def LaidOut (pages : Address → PageItem R) (termId : Nat) : Option Address → List (Chunk R) → Prop
  | next, [] => next = none
  | next, chunk :: rest => ∃ address tuple, next = some address ∧
    Readable pages termId address tuple ∧ tuple.chunk = chunk ∧ LaidOut pages termId tuple.next rest

/-- A term's entry in the lexicon, with the chunks of its list. -/
structure StoredTerm (R : Type*) where
  ref : TermRef
  start : Option Address
  chunkCount : Nat
  chunks : List (Chunk R)

structure PostingStore (R : Type*) [Field R] [LinearOrder R] where
  pages : Address → PageItem R
  terms : List (StoredTerm R)
  laidOut : ∀ term ∈ terms, LaidOut pages term.ref.termId term.start term.chunks
  sorted : ∀ term ∈ terms, Sorted term.chunks
  counted : ∀ term ∈ terms, term.chunkCount = term.chunks.length

section Store

variable (store : PostingStore R) (docs : DocState)

def iteratorOpen (policy : HotPostingsPolicy) (term : StoredTerm R)
    (cache : Option (HotPostingsCache R)) :
    Except String (Bool × PostingIterator R × Option (HotPostingsCache R)) :=
  let fresh : PostingIterator R :=
    ⟨⟨[], 0, 0, 0, 0⟩, 0, term.start, 0, max term.chunkCount 1, false⟩
  match loadChunk store.pages policy term.ref fresh cache with
  | .error message => .error message
  | .ok (false, it, cache) => .ok (false, it, cache)
  | .ok (true, it, cache) => advanceValid store.pages docs policy term.ref it cache

/-! ### Several iterators over one cache -/

/-- What a backend does with its iterators: it opens one more, or moves one of them. -/
inductive IteratorOp where
  | openTerm (term : Nat)
  | seek (slot target : Nat)
  | advance (slot : Nat)
  deriving DecidableEq, Repr

/-- The iterators with their terms, and the cache, if there is one. -/
structure IteratorSystem (R : Type*) where
  iterators : List (StoredTerm R × PostingIterator R) := []
  cache : Option (HotPostingsCache R)

/-- An operation and the posting the iterator stands on after it. The settings can change between
any two operations. -/
def stepSystem (policy : HotPostingsPolicy) (op : IteratorOp) (system : IteratorSystem R) :
    Except String (Option Posting × IteratorSystem R) :=
  match op with
  | .openTerm number =>
    match store.terms[number]? with
    | none => .ok (none, system)
    | some term =>
      match iteratorOpen store docs policy term system.cache with
      | .error message => .error message
      | .ok (_, it, cache) =>
        .ok (it.posting?, ⟨system.iterators ++ [(term, it)], cache⟩)
  | .seek slot target =>
    match system.iterators[slot]? with
    | none => .ok (none, system)
    | some (term, it) =>
      match seekTo store.pages docs policy term.ref target it system.cache with
      | .error message => .error message
      | .ok (_, it, cache) => .ok (it.posting?, ⟨system.iterators.set slot (term, it), cache⟩)
  | .advance slot =>
    match system.iterators[slot]? with
    | none => .ok (none, system)
    | some (term, it) =>
      match advancePast store.pages docs policy term.ref it.nodeId it system.cache with
      | .error message => .error message
      | .ok (_, it, cache) => .ok (it.posting?, ⟨system.iterators.set slot (term, it), cache⟩)

def runSystem : List (HotPostingsPolicy × IteratorOp) → IteratorSystem R →
    Except String (List (Option Posting))
  | [], _ => .ok []
  | (policy, op) :: rest, system =>
    match stepSystem store docs policy op system with
    | .error message => .error message
    | .ok (posting, system) =>
      match runSystem rest system with
      | .error message => .error message
      | .ok postings => .ok (posting :: postings)

/-! ### The lists as they are read -/

def livePostings (chunks : List (Chunk R)) : List Posting :=
  (chunks.flatMap Chunk.postings).filter fun posting => docs.scorable posting.nodeId

/-- An operation on the postings that are left to each iterator. -/
def stepLive (op : IteratorOp) (left : List (List Posting)) :
    Option Posting × List (List Posting) :=
  match op with
  | .openTerm number =>
    match store.terms[number]? with
    | none => (none, left)
    | some term => ((livePostings docs term.chunks).head?, left ++ [livePostings docs term.chunks])
  | .seek slot target =>
    match left[slot]? with
    | none => (none, left)
    | some postings =>
      let rest := postings.dropWhile fun posting => posting.nodeId < target
      (rest.head?, left.set slot rest)
  | .advance slot =>
    match left[slot]? with
    | none => (none, left)
    | some postings => (postings.tail.head?, left.set slot postings.tail)

def runLive : List IteratorOp → List (List Posting) → List (Option Posting)
  | [], _ => []
  | op :: rest, left => (stepLive store docs op left).1 :: runLive rest (stepLive store docs op left).2

end Store

/-! ### A load -/

section Load

variable {pages : Address → PageItem R} {docs : DocState} {policy : HotPostingsPolicy}
  {term : TermRef} {it : PostingIterator R} {cache : Option (HotPostingsCache R)}
  {chunk : Chunk R} {rest : List (Chunk R)}

theorem loadChunk_end (ended : it.next = none) :
    loadChunk pages policy term it cache = .ok (false, it.reset, cache) := by
  unfold loadChunk
  rw [ended]

/-- **A load** gives the chunk of the next tuple with any cache of copies, and leaves it one. -/
theorem loadChunk_spec (holds : ∀ own ∈ cache, Holds pages own)
    (laidOut : LaidOut pages term.termId it.next (chunk :: rest))
    (room : it.chunkNo < it.chunkLimit) :
    ∃ next cache', loadChunk pages policy term it cache =
        .ok (!chunk.postings.isEmpty, it.loaded (loadedChunk chunk) next, cache') ∧
      (∀ own ∈ cache', Holds pages own) ∧ LaidOut pages term.termId next rest := by
  obtain ⟨address, tuple, at', readable, rfl, later⟩ := laidOut
  unfold loadChunk
  rw [at']
  simp only
  rw [if_neg (not_le.mpr room)]
  cases found : cache.bind (cacheLookup policy term address) with
  | some entry =>
    obtain ⟨own, rfl, hit⟩ := Option.bind_eq_some_iff.mp found
    obtain ⟨other, readable', -, chunk, next⟩ := cacheLookup_spec (holds own rfl) hit
    have same : PageItem.tuple tuple = .tuple other := readable.there.symm.trans readable'.there
    obtain rfl := PageItem.tuple.inj same
    refine ⟨tuple.next, some (own.lruTouch entry), ?_, ?_, later⟩
    · simp only [chunk, next]
      rfl
    · rintro _ ⟨⟩
      exact (holds own rfl).touch (cacheLookup_mem hit).1
  | none =>
    simp only [readable.there]
    rw [if_neg (not_not.mpr readable.term), if_neg (by rw [readable.valid]; decide)]
    refine ⟨tuple.next, _, rfl, ?_, later⟩
    intro own stored
    obtain ⟨before, rfl, rfl⟩ := Option.map_eq_some_iff.mp stored
    exact (holds before rfl).store readable

end Load

/-! ### The loops and the cursors -/

section Shows

variable {pages : Address → PageItem R} {docs : DocState} {policy : HotPostingsPolicy}
  {term : TermRef} {it : PostingIterator R} {cache : Option (HotPostingsCache R)}
  {chunk : Chunk R} {window : List Posting} {rest : List (Chunk R)}

/-- **An iterator at a place**: it holds the chunk, its position begins the window, and the tuples
ahead of it are the chunks ahead. -/
structure Shows (pages : Address → PageItem R) (termId : Nat) (it : PostingIterator R)
    (cursor : Cursor R) : Prop where
  valid : it.valid = true
  chunk : it.chunk = cursor.chunk
  window : it.chunk.postings.drop it.pos = cursor.window
  rest : LaidOut pages termId it.next cursor.rest
  room : cursor.rest.length ≤ it.chunkLimit - it.chunkNo

def ShowsAt (pages : Address → PageItem R) (termId : Nat) (it : PostingIterator R) :
    Option (Cursor R) → Prop
  | none => it.valid = false
  | some cursor => Shows pages termId it cursor

theorem drop_skip (it : PostingIterator R) (stepOver : Posting → Bool) :
    (it.skip stepOver).chunk.postings.drop (it.skip stepOver).pos =
      (it.chunk.postings.drop it.pos).dropWhile stepOver := by
  have whole (postings : List Posting) :
      postings.drop (postings.takeWhile stepOver).length = postings.dropWhile stepOver := by
    have split := List.takeWhile_append_dropWhile (p := stepOver) (l := postings)
    have behind := @List.drop_left _ (postings.takeWhile stepOver) (postings.dropWhile stepOver)
    rwa [split] at behind
  rw [← whole, List.drop_drop]
  rfl

theorem Shows.skip (shows : Shows pages term.termId it ⟨chunk, window, rest⟩)
    (stepOver : Posting → Bool) :
    Shows pages term.termId (it.skip stepOver) ⟨chunk, window.dropWhile stepOver, rest⟩ :=
  ⟨shows.valid, shows.chunk, (drop_skip it stepOver).trans (congrArg _ shows.window), shows.rest,
    shows.room⟩

theorem Shows.inside_iff (shows : Shows pages term.termId it ⟨chunk, window, rest⟩) :
    it.pos < it.chunk.postings.length ↔ window ≠ [] := by
  have same : it.chunk.postings.drop it.pos = window := shows.window
  rw [← same, ne_eq, List.drop_eq_nil_iff, not_le]

theorem Shows.posting? (shows : Shows pages term.termId it ⟨chunk, window, rest⟩) :
    it.posting? = window.head? := by
  have same : it.chunk.postings.drop it.pos = window := shows.window
  rw [PostingIterator.posting?, if_pos shows.valid, ← same, List.head?_drop]

theorem shows_loaded {next : Option Address} {header : Chunk R} (some' : header.postings ≠ [])
    (laidOut : LaidOut pages term.termId next rest) (room : rest.length < it.chunkLimit - it.chunkNo) :
    Shows pages term.termId (it.loaded header next) ⟨header, header.postings, rest⟩ := by
  refine ⟨?_, rfl, rfl, laidOut, ?_⟩
  · simpa [PostingIterator.loaded] using some'
  · show rest.length ≤ it.chunkLimit - (it.chunkNo + 1)
    omega

/-- **Advancing** does what the cursor does. -/
theorem advanceValidLoop_shows (holds : ∀ own ∈ cache, Holds pages own)
    (shows : Shows pages term.termId it ⟨chunk, window, rest⟩) {left : Nat}
    (enough : rest.length ≤ left) :
    ∃ it' cache', advanceValidLoop pages docs policy term left it cache =
        .ok ((iteratorAdvanceValid docs rest chunk window).isSome, it', cache') ∧
      (∀ own ∈ cache', Holds pages own) ∧
      ShowsAt pages term.termId it' (iteratorAdvanceValid docs rest chunk window) := by
  induction rest generalizing it cache chunk window left with
  | nil =>
    have skipped := shows.skip fun posting => !docs.scorable posting.nodeId
    unfold advanceValidLoop
    simp only [shows.valid, if_true]
    by_cases here : window.dropWhile (fun posting => !docs.scorable posting.nodeId) = []
    · have stop : iteratorAdvanceValid docs [] chunk window = none := by
        rw [iteratorAdvanceValid, skipDead, here]
        rfl
      have ended : (it.skip fun posting => !docs.scorable posting.nodeId).next = none :=
        skipped.rest
      rw [if_neg (by simp [skipped.valid, skipped.inside_iff, here]), loadChunk_end ended, stop]
      exact ⟨_, _, rfl, holds, rfl⟩
    · have stays : iteratorAdvanceValid docs [] chunk window =
          some ⟨chunk, skipDead docs window, []⟩ := by
        rw [iteratorAdvanceValid, if_neg (by simpa [skipDead] using here)]
      rw [if_pos (by simp [skipped.valid, skipped.inside_iff, here]), stays]
      exact ⟨_, _, rfl, holds, skipped⟩
  | cons next rest ih =>
    have skipped := shows.skip fun posting => !docs.scorable posting.nodeId
    unfold advanceValidLoop
    simp only [shows.valid, if_true]
    by_cases here : window.dropWhile (fun posting => !docs.scorable posting.nodeId) = []
    · have room := skipped.room
      rw [List.length_cons] at room enough
      obtain ⟨address, cache', loaded, kept, later⟩ :=
        @loadChunk_spec _ _ _ _ pages policy term _ cache _ _ holds skipped.rest (by omega)
      rw [if_neg (by simp [skipped.valid, skipped.inside_iff, here]), loaded,
        iteratorAdvanceValid, if_pos (by simp [skipDead, here])]
      cases empty : next.postings.isEmpty with
      | true => exact ⟨_, _, rfl, kept, by simp [ShowsAt, PostingIterator.loaded, loadedChunk, empty]⟩
      | false =>
        obtain ⟨left, rfl⟩ : ∃ less, left = less + 1 := ⟨left - 1, by omega⟩
        have some' : (loadedChunk next).postings ≠ [] := by simpa [loadedChunk] using empty
        exact ih kept (shows_loaded some' later (by omega)) (by omega)
    · have stays : iteratorAdvanceValid docs (next :: rest) chunk window =
          some ⟨chunk, skipDead docs window, next :: rest⟩ := by
        rw [iteratorAdvanceValid, if_neg (by simpa [skipDead] using here)]
      rw [if_pos (by simp [skipped.valid, skipped.inside_iff, here]), stays]
      exact ⟨_, _, rfl, holds, skipped⟩

theorem advanceValid_shows (holds : ∀ own ∈ cache, Holds pages own)
    (shows : Shows pages term.termId it ⟨chunk, window, rest⟩) :
    ∃ it' cache', advanceValid pages docs policy term it cache =
        .ok ((iteratorAdvanceValid docs rest chunk window).isSome, it', cache') ∧
      (∀ own ∈ cache', Holds pages own) ∧
      ShowsAt pages term.termId it' (iteratorAdvanceValid docs rest chunk window) :=
  advanceValidLoop_shows holds shows shows.room

/-- **Seeking** does what the cursor does. -/
theorem seekToLoop_shows (holds : ∀ own ∈ cache, Holds pages own)
    (shows : Shows pages term.termId it ⟨chunk, window, rest⟩) (target : Nat) {left : Nat}
    (enough : rest.length ≤ left) :
    ∃ it' cache', seekToLoop pages docs policy term target left it cache =
        .ok ((iteratorSeekChunks docs target rest chunk window).isSome, it', cache') ∧
      (∀ own ∈ cache', Holds pages own) ∧
      ShowsAt pages term.termId it' (iteratorSeekChunks docs target rest chunk window) := by
  induction rest generalizing it cache chunk window left with
  | nil =>
    unfold seekToLoop
    rw [if_neg (by rw [shows.valid]; decide), iteratorSeekChunks, shows.chunk]
    by_cases past : chunk.lastNodeId < target
    · have ended : it.next = none := shows.rest
      rw [if_pos past, if_pos past, loadChunk_end ended]
      exact ⟨_, _, rfl, holds, rfl⟩
    · rw [if_neg past, if_neg past]
      exact advanceValid_shows holds (shows.skip _)
  | cons next rest ih =>
    unfold seekToLoop
    rw [if_neg (by rw [shows.valid]; decide), iteratorSeekChunks, shows.chunk]
    by_cases past : chunk.lastNodeId < target
    · have room := shows.room
      rw [List.length_cons] at room enough
      obtain ⟨address, cache', loaded, kept, later⟩ :=
        @loadChunk_spec _ _ _ _ pages policy term _ cache _ _ holds shows.rest (by omega)
      rw [if_pos past, if_pos past, loaded]
      cases empty : next.postings.isEmpty with
      | true => exact ⟨_, _, rfl, kept, by simp [ShowsAt, PostingIterator.loaded, loadedChunk, empty]⟩
      | false =>
        obtain ⟨left, rfl⟩ : ∃ less, left = less + 1 := ⟨left - 1, by omega⟩
        have some' : (loadedChunk next).postings ≠ [] := by simpa [loadedChunk] using empty
        exact ih kept (shows_loaded some' later (by omega)) (by omega)
    · rw [if_neg past, if_neg past]
      exact advanceValid_shows holds (shows.skip _)

theorem seekTo_shows (holds : ∀ own ∈ cache, Holds pages own)
    (shows : Shows pages term.termId it ⟨chunk, window, rest⟩) (target : Nat) :
    ∃ it' cache', seekTo pages docs policy term target it cache =
        .ok ((iteratorSeekTo docs target ⟨chunk, window, rest⟩).isSome, it', cache') ∧
      (∀ own ∈ cache', Holds pages own) ∧
      ShowsAt pages term.termId it' (iteratorSeekTo docs target ⟨chunk, window, rest⟩) :=
  seekToLoop_shows holds shows target shows.room

theorem seekTo_invalid (invalid : it.valid = false) (target : Nat) :
    seekTo pages docs policy term target it cache = .ok (false, it, cache) := by
  unfold seekTo
  unfold seekToLoop
  exact if_pos invalid

end Shows

/-! ### The live postings ahead -/

section Live

variable {docs : DocState} {chunks : List (Chunk R)} {start target : Nat}

theorem livePostings_sorted (sorted : Sorted chunks) :
    (livePostings docs chunks).Pairwise fun one other => one.nodeId < other.nodeId :=
  sorted.sorted.filter _

theorem locate_head? (docs : DocState) (start : Nat) (chunks : List (Chunk R)) :
    ((locate docs start chunks).bind fun cursor => cursor.window.head?) =
      ((livePostings docs chunks).dropWhile fun posting => posting.nodeId < start).head? := by
  have found : ((locate docs start chunks).bind fun cursor => cursor.window.head?) =
      (chunks.flatMap Chunk.postings).find? fun posting => !before docs start posting := by
    induction chunks with
    | nil => rfl
    | cons chunk rest ih =>
      have own : (chunk.postings.dropWhile (before docs start)).head? =
          chunk.postings.find? fun posting => !before docs start posting := by
        rw [List.find?_not_eq_head?_dropWhile]
      rw [locate_cons, List.flatMap_cons, List.find?_append, ← own]
      cases dropped : chunk.postings.dropWhile (before docs start) with
      | nil => exact ih
      | cons posting window => rfl
  rw [found, livePostings, ← List.find?_not_eq_head?_dropWhile, List.find?_filter]
  refine congrArg (fun test => List.find? test _) (funext fun posting => ?_)
  simp only [before, Bool.not_not, ← not_le, decide_not]
  cases docs.scorable posting.nodeId <;> simp

theorem dropWhile_lt_max {postings : List Posting} (start target : Nat) :
    (postings.dropWhile fun posting => posting.nodeId < start).dropWhile
        (fun posting => posting.nodeId < target) =
      postings.dropWhile fun posting => posting.nodeId < max start target := by
  induction postings with
  | nil => rfl
  | cons head rest ih =>
    by_cases early : head.nodeId < start
    · have both : head.nodeId < max start target := lt_max_of_lt_left early
      simp only [List.dropWhile_cons, early, both, decide_true, if_true]
      exact ih
    · by_cases late : head.nodeId < target
      · have wide : max start target = target := by omega
        simp only [List.dropWhile_cons, early, late, wide, decide_true, decide_false, if_true,
          Bool.false_eq_true, if_false]
      · have neither : ¬head.nodeId < max start target := by omega
        simp only [List.dropWhile_cons, early, late, neither, decide_false, Bool.false_eq_true,
          if_false]

theorem tail_dropWhile {postings rest : List Posting} {posting : Posting}
    (sorted : postings.Pairwise fun one other => one.nodeId < other.nodeId)
    (dropped : (postings.dropWhile fun other => other.nodeId < start) = posting :: rest) :
    rest = postings.dropWhile fun other => other.nodeId < posting.nodeId + 1 := by
  have kept : ¬posting.nodeId < start := by
    have head := List.head?_dropWhile_not (fun other : Posting => decide (other.nodeId < start))
      postings
    rw [dropped] at head
    simpa using head
  have wide : max start (posting.nodeId + 1) = posting.nodeId + 1 := by omega
  have ordered := sorted.sublist (List.dropWhile_sublist fun other => decide (other.nodeId < start))
  rw [dropped, List.pairwise_cons] at ordered
  have again := @dropWhile_lt_max postings start (posting.nodeId + 1)
  rw [wide, dropped, List.dropWhile_cons_of_pos (by simp)] at again
  rw [← again]
  cases rest with
  | nil => rfl
  | cons next later =>
    have above := ordered.1 next List.mem_cons_self
    rw [List.dropWhile_cons_of_neg (by simp; omega)]

theorem seekTo_stay (sorted : Sorted chunks) {cursor : Cursor R}
    (located : locate docs start chunks = some cursor) (le : target ≤ start) :
    iteratorSeekTo docs target cursor = some cursor := by
  obtain ⟨⟨passed, chunk, split, header, within, -⟩, posting, window, atHead, kept, -⟩ :=
    locate_spec sorted located
  have member : posting ∈ chunk.postings := within (atHead ▸ List.mem_cons_self)
  have own : Sorted (chunk :: cursor.rest) := by
    rw [split] at sorted
    clear split
    induction passed with
    | nil => exact sorted
    | cons first more ih => exact ih sorted.tail
  simp only [before, Bool.not_eq_false', Bool.and_eq_true, decide_eq_true_eq] at kept
  have last : ¬(loadedChunk chunk).lastNodeId < target := by
    have := own.le_last member
    rw [loadedChunk_lastNodeId]
    omega
  obtain ⟨header', window', rest⟩ := cursor
  simp only at header atHead
  subst header atHead
  have skipped : (posting :: window).dropWhile (fun other => decide (other.nodeId < target)) =
      posting :: window := List.dropWhile_cons_of_neg (by simp; omega)
  have live : skipDead docs (posting :: window) = posting :: window :=
    List.dropWhile_cons_of_neg (by simp [kept.2])
  show iteratorSeekChunks docs target rest _ _ = _
  cases rest with
  | nil =>
    rw [iteratorSeekChunks, if_neg last, skipped, iteratorAdvanceValid, live]
    rfl
  | cons next rest =>
    rw [iteratorSeekChunks, if_neg last, skipped, iteratorAdvanceValid, live]
    rfl

/-- **Any seek** from a place goes to the place of the larger node. -/
theorem seekTo_locate_max (sorted : Sorted chunks) {cursor : Cursor R}
    (located : locate docs start chunks = some cursor) (target : Nat) :
    iteratorSeekTo docs target cursor = locate docs (max start target) chunks := by
  rcases le_total start target with le | ge
  · rw [max_eq_right le, seekTo_locate le sorted located]
  · rw [max_eq_left ge, located, seekTo_stay sorted located ge]

end Live

/-! ### One operation -/

section Operations

variable {store : PostingStore R} {docs : DocState} {policy : HotPostingsPolicy}
  {term : StoredTerm R} {it : PostingIterator R} {cache : Option (HotPostingsCache R)}
  {postings : List Posting}

/-- **An iterator with the live postings ahead of it.** -/
def Represents (store : PostingStore R) (docs : DocState) (term : StoredTerm R)
    (it : PostingIterator R) (postings : List Posting) : Prop :=
  ∃ start, ShowsAt store.pages term.ref.termId it (locate docs start term.chunks) ∧
    postings = (livePostings docs term.chunks).dropWhile fun posting => posting.nodeId < start

theorem Represents.posting? (represents : Represents store docs term it postings) :
    it.posting? = postings.head? := by
  obtain ⟨start, shows, rfl⟩ := represents
  rw [← locate_head?]
  cases located : locate docs start term.chunks with
  | none =>
    rw [located] at shows
    exact if_neg (by rw [show it.valid = false from shows]; decide)
  | some cursor =>
    rw [located] at shows
    exact Shows.posting? shows

variable (policy) in
theorem seekTo_represents (member : term ∈ store.terms)
    (holds : ∀ own ∈ cache, Holds store.pages own)
    (represents : Represents store docs term it postings) (target : Nat) :
    ∃ moved it' cache', seekTo store.pages docs policy term.ref target it cache =
        .ok (moved, it', cache') ∧ (∀ own ∈ cache', Holds store.pages own) ∧
      Represents store docs term it'
        (postings.dropWhile fun posting => posting.nodeId < target) := by
  obtain ⟨start, shows, rfl⟩ := represents
  cases located : locate docs start term.chunks with
  | none =>
    rw [located] at shows
    have ended : (livePostings docs term.chunks).dropWhile
        (fun posting => posting.nodeId < start) = [] := by
      rw [← List.head?_eq_none_iff, ← locate_head?, located]
      rfl
    refine ⟨false, it, cache, seekTo_invalid shows target, holds, start, ?_, ?_⟩
    · rw [located]
      exact shows
    · rw [ended]
      rfl
  | some cursor =>
    rw [located] at shows
    obtain ⟨it', cache', moved, kept, place⟩ :=
      @seekTo_shows _ _ _ _ store.pages docs policy term.ref _ _ _ _ _ holds shows target
    refine ⟨_, it', cache', moved, kept, max start target, ?_, dropWhile_lt_max start target⟩
    rw [← seekTo_locate_max (store.sorted term member) located]
    exact place

theorem nodeId_ne_max {posting : Posting} (live : posting ∈ livePostings docs term.chunks) :
    posting.nodeId ≠ uint32Max := by
  have scorable := (List.mem_filter.mp live).2
  have below := (DocState.scorable_lt scorable).trans_le docs.nodeCount_lt
  omega

variable (policy) in
theorem advancePast_represents (member : term ∈ store.terms)
    (holds : ∀ own ∈ cache, Holds store.pages own)
    (represents : Represents store docs term it postings) :
    ∃ moved it' cache', advancePast store.pages docs policy term.ref it.nodeId it cache =
        .ok (moved, it', cache') ∧ (∀ own ∈ cache', Holds store.pages own) ∧
      Represents store docs term it' postings.tail := by
  have here := represents.posting?
  cases left : postings with
  | nil =>
    rw [left] at here represents
    have ended : it.nodeId = uint32Max := by rw [PostingIterator.nodeId, here]; rfl
    exact ⟨false, it, cache, if_pos ended, holds, represents⟩
  | cons posting rest =>
    rw [left] at here
    have own : it.nodeId = posting.nodeId := by rw [PostingIterator.nodeId, here]; rfl
    obtain ⟨start, shown, same⟩ := id represents
    have live : posting ∈ livePostings docs term.chunks := by
      refine (List.dropWhile_sublist fun other : Posting => decide (other.nodeId < start)).mem ?_
      rw [← same, left]
      exact List.mem_cons_self
    have behind : rest = postings.dropWhile fun other => other.nodeId < posting.nodeId + 1 := by
      have sorted := @livePostings_sorted _ _ _ _ docs _ (store.sorted term member)
      rw [tail_dropWhile sorted (same.symm.trans left), same, dropWhile_lt_max]
      have kept : ¬posting.nodeId < start := by
        have head := List.head?_dropWhile_not (fun other : Posting => decide (other.nodeId < start))
          (livePostings docs term.chunks)
        rw [← same, left] at head
        simpa using head
      rw [show max start (posting.nodeId + 1) = posting.nodeId + 1 by omega]
    obtain ⟨moved, it', cache', sought, kept, place⟩ :=
      seekTo_represents policy member holds represents (posting.nodeId + 1)
    refine ⟨moved, it', cache', ?_, kept, ?_⟩
    · rw [advancePast, own, if_neg (nodeId_ne_max live)]
      exact sought
    · rw [List.tail_cons, behind]
      exact place

variable (policy) in
theorem iteratorOpen_represents (member : term ∈ store.terms)
    (holds : ∀ own ∈ cache, Holds store.pages own) :
    ∃ moved it' cache', iteratorOpen store docs policy term cache = .ok (moved, it', cache') ∧
      (∀ own ∈ cache', Holds store.pages own) ∧
      Represents store docs term it' (livePostings docs term.chunks) := by
  have laidOut := store.laidOut term member
  have counted := store.counted term member
  have whole : livePostings docs term.chunks =
      (livePostings docs term.chunks).dropWhile fun posting => posting.nodeId < 0 := by
    rw [List.dropWhile_eq_self_iff.mpr]
    intro _
    simp
  have place := init_locate docs (store.sorted term member)
  unfold iteratorOpen
  extract_lets fresh
  cases chunks : term.chunks with
  | nil =>
    rw [chunks] at laidOut
    have ended : fresh.next = none := laidOut
    rw [loadChunk_end ended]
    refine ⟨false, _, cache, rfl, holds, 0, ?_, chunks ▸ whole⟩
    rw [chunks]
    exact rfl
  | cons chunk rest =>
    rw [chunks] at laidOut counted place
    have room : fresh.chunkNo < fresh.chunkLimit := by
      show 0 < max term.chunkCount 1
      omega
    obtain ⟨next, cache', loaded, kept, later⟩ :=
      @loadChunk_spec _ _ _ _ store.pages policy term.ref fresh cache _ _ holds laidOut room
    have some' : chunk.postings ≠ [] := (store.sorted term member).nonempty chunk
      (chunks ▸ List.mem_cons_self)
    have empty : chunk.postings.isEmpty = false := by simpa using some'
    have shown : Shows store.pages term.ref.termId (fresh.loaded (loadedChunk chunk) next)
        ⟨loadedChunk chunk, chunk.postings, rest⟩ := by
      refine shows_loaded some' later ?_
      show rest.length < max term.chunkCount 1 - 0
      rw [counted, List.length_cons]
      omega
    obtain ⟨it', cache'', moved, kept', place'⟩ :=
      @advanceValid_shows _ _ _ _ store.pages docs policy term.ref _ _ _ _ _ kept shown
    rw [loaded, empty]
    refine ⟨_, it', cache'', moved, kept', 0, ?_, chunks ▸ whole⟩
    rw [chunks, ← place, iteratorInit, iteratorLoadChunk, empty]
    exact place'

/-! ### Every run -/

/-- The iterators of a backend with the live postings ahead of each. -/
structure Matches (store : PostingStore R) (docs : DocState) (system : IteratorSystem R)
    (left : List (List Posting)) : Prop where
  length : system.iterators.length = left.length
  each : ∀ (slot : Nat) (term : StoredTerm R) (it : PostingIterator R) (postings : List Posting),
    system.iterators[slot]? = some (term, it) → left[slot]? = some postings →
      term ∈ store.terms ∧ Represents store docs term it postings
  holds : ∀ own ∈ system.cache, Holds store.pages own

section System

variable {system : IteratorSystem R} {left : List (List Posting)}

theorem Matches.slot (matched : Matches store docs system left) {slot : Nat}
    {own : StoredTerm R × PostingIterator R} (found : system.iterators[slot]? = some own) :
    ∃ postings, left[slot]? = some postings ∧ own.1 ∈ store.terms ∧
      Represents store docs own.1 own.2 postings := by
  obtain ⟨inside, -⟩ := List.getElem?_eq_some_iff.mp found
  have there := List.getElem?_eq_getElem (matched.length ▸ inside)
  exact ⟨_, there, matched.each slot own.1 own.2 _ found there⟩

theorem Matches.set (matched : Matches store docs system left) {slot : Nat}
    (member : term ∈ store.terms) (holds : ∀ own ∈ cache, Holds store.pages own)
    (represents : Represents store docs term it postings) :
    Matches store docs ⟨system.iterators.set slot (term, it), cache⟩ (left.set slot postings) := by
  refine ⟨by simp [matched.length], fun other term' it' postings' found found' => ?_, holds⟩
  rw [List.getElem?_set] at found found'
  by_cases same : slot = other
  · rw [if_pos same] at found found'
    split_ifs at found found' with inside
    obtain ⟨rfl, rfl⟩ := Prod.mk.inj (Option.some.inj found)
    obtain rfl := Option.some.inj found'
    exact ⟨member, represents⟩
  · rw [if_neg same] at found found'
    exact matched.each other term' it' postings' found found'

theorem Matches.push (matched : Matches store docs system left) (member : term ∈ store.terms)
    (holds : ∀ own ∈ cache, Holds store.pages own)
    (represents : Represents store docs term it postings) :
    Matches store docs ⟨system.iterators ++ [(term, it)], cache⟩ (left ++ [postings]) := by
  refine ⟨by simp [matched.length], fun other term' it' postings' found found' => ?_, holds⟩
  rcases lt_trichotomy other system.iterators.length with before | here | behind
  · rw [List.getElem?_append_left before] at found
    rw [List.getElem?_append_left (matched.length ▸ before)] at found'
    exact matched.each other term' it' postings' found found'
  · have at' : other = left.length := here.trans matched.length
    rw [here, List.getElem?_concat_length] at found
    rw [at', List.getElem?_concat_length] at found'
    obtain ⟨rfl, rfl⟩ := Prod.mk.inj (Option.some.inj found)
    obtain rfl := Option.some.inj found'
    exact ⟨member, represents⟩
  · rw [List.getElem?_eq_none (by simp; omega)] at found
    cases found

/-- **One operation** moves the iterator it names to the next live posting it asks for. -/
theorem stepSystem_represents (matched : Matches store docs system left)
    (policy : HotPostingsPolicy) (op : IteratorOp) :
    ∃ system', stepSystem store docs policy op system =
        .ok ((stepLive store docs op left).1, system') ∧
      Matches store docs system' (stepLive store docs op left).2 := by
  have absent {slot : Nat} (none' : system.iterators[slot]? = none) : left[slot]? = none := by
    rw [List.getElem?_eq_none_iff] at none' ⊢
    exact matched.length ▸ none'
  cases op with
  | openTerm number =>
    cases found : store.terms[number]? with
    | none =>
      simp only [stepSystem, stepLive, found]
      exact ⟨system, rfl, matched⟩
    | some term =>
      have member := List.mem_of_getElem? found
      obtain ⟨moved, it', cache', opened, kept, represents⟩ :=
        @iteratorOpen_represents _ _ _ _ store docs policy term system.cache member matched.holds
      simp only [stepSystem, stepLive, found, opened, represents.posting?]
      exact ⟨_, rfl, matched.push member kept represents⟩
  | seek slot target =>
    cases found : system.iterators[slot]? with
    | none =>
      simp only [stepSystem, stepLive, found, absent found]
      exact ⟨system, rfl, matched⟩
    | some own =>
      obtain ⟨postings, there, member, represents⟩ := matched.slot found
      obtain ⟨moved, it', cache', sought, kept, represents'⟩ :=
        seekTo_represents policy member matched.holds represents target
      simp only [stepSystem, stepLive, found, there, sought, represents'.posting?]
      exact ⟨_, rfl, matched.set member kept represents'⟩
  | advance slot =>
    cases found : system.iterators[slot]? with
    | none =>
      simp only [stepSystem, stepLive, found, absent found]
      exact ⟨system, rfl, matched⟩
    | some own =>
      obtain ⟨postings, there, member, represents⟩ := matched.slot found
      obtain ⟨moved, it', cache', advanced, kept, represents'⟩ :=
        advancePast_represents policy member matched.holds represents
      simp only [stepSystem, stepLive, found, there, advanced, represents'.posting?]
      exact ⟨_, rfl, matched.set member kept represents'⟩

theorem runSystem_represents (matched : Matches store docs system left)
    (steps : List (HotPostingsPolicy × IteratorOp)) :
    runSystem store docs steps system = .ok (runLive store docs (steps.map Prod.snd) left) := by
  induction steps generalizing system left with
  | nil => rfl
  | cons step rest ih =>
    obtain ⟨policy, op⟩ := step
    obtain ⟨system', stepped, matched'⟩ := stepSystem_represents matched policy op
    rw [runSystem, stepped]
    simp only [ih matched', List.map_cons, runLive]

/-- A backend without iterators, and with an empty cache or none. -/
def freshSystem (cached : Bool) : IteratorSystem R := ⟨[], if cached then some {} else none⟩

theorem runSystem_fresh (store : PostingStore R) (docs : DocState) (cached : Bool)
    (steps : List (HotPostingsPolicy × IteratorOp)) :
    runSystem store docs steps (freshSystem cached) =
      .ok (runLive store docs (steps.map Prod.snd) []) := by
  refine runSystem_represents ⟨rfl, fun slot _ _ _ found => ?_, fun own stored => ?_⟩ steps
  · rw [show (freshSystem cached : IteratorSystem R).iterators = [] from rfl] at found
    cases found
  · cases cached with
    | false => cases stored
    | true =>
      obtain rfl : ({} : HotPostingsCache R) = own := Option.some.inj stored
      exact holds_empty store.pages

end System

/-! ### Seeks in order, and advances -/

section Walks

variable {live : List Posting}

theorem runLive_seeks {targets : List Nat} (ordered : targets.Pairwise fun one other => one ≤ other)
    (start : Nat) (above : ∀ target ∈ targets, start ≤ target) :
    runLive store docs (targets.map (IteratorOp.seek 0))
        [live.dropWhile fun posting => posting.nodeId < start] =
      targets.map fun target => live.find? fun posting => target ≤ posting.nodeId := by
  induction targets generalizing start with
  | nil => rfl
  | cons target rest ih =>
    have le := above target List.mem_cons_self
    have wide : max start target = target := max_eq_right le
    have here : (live.dropWhile fun posting => posting.nodeId < target).head? =
        live.find? fun posting => target ≤ posting.nodeId := by
      rw [← List.find?_not_eq_head?_dropWhile]
      refine congrArg (fun test => List.find? test live) (funext fun posting => ?_)
      simp only [← not_lt, decide_not]
    rw [List.map_cons, runLive, List.map_cons]
    simp only [stepLive, List.getElem?_cons_zero, dropWhile_lt_max, wide, List.set_cons_zero]
    rw [here, ih (List.pairwise_cons.mp ordered).2 target (List.pairwise_cons.mp ordered).1]

theorem runLive_advances (count : Nat) :
    runLive store docs (List.replicate count (IteratorOp.advance 0)) [live] =
      (List.range count).map fun index => live[index + 1]? := by
  induction count generalizing live with
  | zero => rfl
  | succ count ih =>
    rw [List.replicate_succ, runLive, List.range_succ_eq_map, List.map_cons, List.map_map]
    simp only [stepLive, List.getElem?_cons_zero, List.set_cons_zero]
    rw [ih, List.head?_eq_getElem?, List.getElem?_tail]
    refine congrArg _ (List.map_congr_left fun index _ => ?_)
    rw [List.getElem?_tail]
    rfl

/-- **The iterators walk the live postings**, with the cache as without it: every run of opens,
seeks and advances meets what the lists of live postings have, seeks in order land on the first
live posting from each target on, and advances meet each live posting once. -/
theorem postingIterator_walks (store : PostingStore R) (docs : DocState) (cached : Bool)
    (steps : List (HotPostingsPolicy × IteratorOp)) (policy : HotPostingsPolicy) {number : Nat}
    {term : StoredTerm R} (listed : store.terms[number]? = some term) {targets : List Nat}
    (ordered : targets.Pairwise fun one other => one ≤ other) (count : Nat) :
    let live := livePostings docs term.chunks
    runSystem store docs steps (freshSystem cached) =
        .ok (runLive store docs (steps.map Prod.snd) []) ∧
      runSystem store docs
          ((policy, .openTerm number) :: targets.map fun target => (policy, .seek 0 target))
          (freshSystem cached) =
        .ok (live.head? :: targets.map fun target =>
          live.find? fun posting => target ≤ posting.nodeId) ∧
      runSystem store docs
          ((policy, .openTerm number) :: List.replicate count (policy, .advance 0))
          (freshSystem cached) =
        .ok ((List.range (count + 1)).map fun index => live[index]?) := by
  intro live
  refine ⟨runSystem_fresh store docs cached steps, ?_, ?_⟩
  · have seeks := @runLive_seeks _ _ _ _ store docs live targets ordered 0
      fun _ _ => Nat.zero_le _
    rw [List.dropWhile_eq_self_iff.mpr (by intro _; simp)] at seeks
    rw [runSystem_fresh, List.map_cons, runLive, List.map_map, ← seeks]
    simp only [stepLive, listed]
    rfl
  · rw [runSystem_fresh, List.map_cons, runLive, List.map_replicate, List.range_succ_eq_map,
      List.map_cons, List.map_map]
    simp only [stepLive, listed, List.nil_append]
    rw [runLive_advances, List.head?_eq_getElem?]
    rfl

end Walks

end Operations

/-! ### A list of two chunks -/

section TwoChunks

def firstChunk : Chunk Rat := ⟨[⟨0, 1, 0⟩, ⟨2, 1, 0⟩], 2, 1, 0, 0⟩

def secondChunk : Chunk Rat := ⟨[⟨5, 1, 0⟩, ⟨9, 1, 0⟩], 9, 1, 0, 0⟩

def twoChunkTerm : StoredTerm Rat := ⟨⟨7, 4⟩, some (1, 1), 2, [firstChunk, secondChunk]⟩

def twoChunkPages (address : Address) : PageItem Rat :=
  if address = (1, 1) then .tuple ⟨7, true, true, firstChunk, some (1, 2)⟩
  else if address = (1, 2) then .tuple ⟨7, true, true, secondChunk, none⟩
  else .invalid

def twoChunkStore : PostingStore Rat where
  pages := twoChunkPages
  terms := [twoChunkTerm]
  laidOut := by
    intro term member
    obtain rfl := List.mem_singleton.mp member
    exact ⟨(1, 1), _, rfl, ⟨rfl, rfl, rfl⟩, rfl, (1, 2), _, rfl, ⟨rfl, rfl, rfl⟩, rfl, rfl⟩
  sorted := by
    intro term member
    obtain rfl := List.mem_singleton.mp member
    refine ⟨?_, ?_, ?_⟩
    · intro chunk listed
      rcases List.mem_pair.mp listed with rfl | rfl
      · exact List.cons_ne_nil _ _
      · exact List.cons_ne_nil _ _
    · intro chunk listed
      rcases List.mem_pair.mp listed with rfl | rfl
      · rfl
      · rfl
    · show [(⟨0, 1, 0⟩ : Posting), ⟨2, 1, 0⟩, ⟨5, 1, 0⟩, ⟨9, 1, 0⟩].Pairwise _
      decide
  counted := by
    intro term member
    obtain rfl := List.mem_singleton.mp member
    rfl

def tenDocs : DocState where
  nodeCount := 10
  docLens := List.replicate 10 1
  liveNodes := [true, true, false, true, true, true, true, true, true, true]
  nodeCount_lt := by decide

/-- Opened, sought to 1 and to 5, with the cache: the dead node is stepped over. -/
theorem postingIterator_twoChunks :
    runSystem twoChunkStore tenDocs
        ((⟨4096, 1⟩, .openTerm 0) :: [1, 5].map fun target => (⟨4096, 1⟩, .seek 0 target))
        (freshSystem true) =
      .ok [some ⟨0, 1, 0⟩, some ⟨5, 1, 0⟩, some ⟨5, 1, 0⟩] :=
  (postingIterator_walks twoChunkStore tenDocs true [] ⟨4096, 1⟩
    (show twoChunkStore.terms[0]? = some twoChunkTerm from rfl)
    (show [1, 5].Pairwise fun one other => one ≤ other by decide) 0).2.1

end TwoChunks

end TurboHybrid.Scan.Loading
