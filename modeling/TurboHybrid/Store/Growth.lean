/-
**The writers of the base only add to a relation.**

A writer of the base starts with chains that have no page yet. Whatever it writes, it writes to
pages it added itself, at every write and also where it fails; and the pointers stay inside.

* `Grown`: the disks a writer gets to by writes beyond the pages there were;
* `Grown.stopped`: after any number of these writes the pages there were are as they were;
* `addItem_grown`: an append to a chain of the writer;
* `writeBasePages_grown`: the writer of the base.
-/
import TurboHybrid.Store.Collector
import TurboHybrid.Store.Lookup

set_option linter.unusedSectionVars false

namespace TurboHybrid.Store

open TurboHybrid.Index TurboHybrid.Library TurboHybrid.Query TurboHybrid.Scan

/-! ### Growth -/

section Growth

variable {R : Type}

def PageWrite.Beyond (base : Nat) : PageWrite R → Prop
  | .extend => True
  | .put changes => ∀ change ∈ changes, base ≤ change.1

/-- The disks reached by writes beyond some pages, whose pointers stay inside. -/
inductive Grown (base : Nat) (origin : Disk R) : Disk R → Prop
  | same : Grown base origin origin
  | write {disk : Disk R} {change : PageWrite R} (grown : Grown base origin disk)
      (beyond : change.Beyond base) (inside : PointersInside (change.apply disk.pages)) :
      Grown base origin (disk.write change)

def replay (pages : List (StorePage R)) (log : List (PageWrite R)) : List (StorePage R) :=
  log.foldl PageWrite.apply pages

variable {base : Nat} {origin disk next : Disk R} {change : PageWrite R}

theorem Grown.trans (grown : Grown base origin disk) (more : Grown base disk next) :
    Grown base origin next := by
  induction more with
  | same => exact grown
  | write _ beyond inside ih => exact ih.write beyond inside

theorem Grown.inside (grown : Grown base origin disk) (initially : PointersInside origin.pages) :
    PointersInside disk.pages := by
  cases grown with
  | same => exact initially
  | write _ _ inside => exact inside

theorem foldl_set_length (changes : List (BlockNumber × StorePage R))
    (pages : List (StorePage R)) :
    (changes.foldl (fun pages change => pages.set change.1 change.2) pages).length =
      pages.length := by
  induction changes generalizing pages with
  | nil => rfl
  | cons change rest ih => rw [List.foldl_cons, ih, List.length_set]

theorem foldl_set_below {changes : List (BlockNumber × StorePage R)}
    (beyond : ∀ change ∈ changes, base ≤ change.1) {block : Nat} (below : block < base)
    (pages : List (StorePage R)) :
    (changes.foldl (fun pages change => pages.set change.1 change.2) pages)[block]? =
      pages[block]? := by
  induction changes generalizing pages with
  | nil => rfl
  | cons change rest ih =>
    have other : change.1 ≠ block :=
      Ne.symm (Nat.ne_of_lt (Nat.lt_of_lt_of_le below (beyond change List.mem_cons_self)))
    rw [List.foldl_cons, ih fun change member => beyond change (.tail _ member),
      List.getElem?_set_ne other]

theorem PageWrite.apply_length (pages : List (StorePage R)) (change : PageWrite R) :
    pages.length ≤ (change.apply pages).length := by
  cases change with
  | extend =>
    rw [PageWrite.apply, List.length_append]
    exact Nat.le_add_right _ _
  | put changes => exact (foldl_set_length changes pages).ge

/-- **A write beyond a block** changes no page before it. -/
theorem PageWrite.apply_kept {pages : List (StorePage R)} (beyond : change.Beyond base)
    (size : base ≤ pages.length) {block : Nat} (below : block < base) :
    (change.apply pages)[block]? = pages[block]? := by
  cases change with
  | extend => exact List.getElem?_append_left (by omega)
  | put changes => exact foldl_set_below beyond below pages

theorem Grown.length_le (grown : Grown base origin disk) :
    origin.pages.length ≤ disk.pages.length := by
  induction grown with
  | same => exact Nat.le_refl _
  | write _ _ _ ih => exact ih.trans (PageWrite.apply_length _ _)

theorem Grown.kept (grown : Grown base origin disk) (size : base ≤ origin.pages.length)
    {block : Nat} (below : block < base) : disk.pages[block]? = origin.pages[block]? := by
  induction grown with
  | same => rfl
  | write grown beyond _ ih =>
    exact (PageWrite.apply_kept beyond (size.trans grown.length_le) below).trans ih

theorem Grown.replayed (grown : Grown base origin disk) (unwritten : origin.log = []) :
    replay origin.pages disk.log = disk.pages := by
  induction grown with
  | same =>
    rw [unwritten]
    rfl
  | write _ _ _ ih =>
    rw [Disk.write, replay, List.foldl_append]
    show replay (replay origin.pages _) _ = _
    rw [ih]
    rfl

/-- **After any number of its writes** a writer leaves the pages there were as they were, and the
pointers inside. -/
theorem Grown.stopped (grown : Grown base origin disk) (unwritten : origin.log = [])
    (initially : PointersInside origin.pages) (size : base = origin.pages.length) (taken : Nat) :
    KeptOutside [] origin.pages (replay origin.pages (disk.log.take taken)) ∧
      PointersInside (replay origin.pages (disk.log.take taken)) := by
  induction grown with
  | same =>
    rw [unwritten, List.take_nil]
    exact ⟨KeptOutside.refl _, initially⟩
  | @write disk change grown beyond inside ih =>
    by_cases before : taken ≤ disk.log.length
    · rw [Disk.write, List.take_append_of_le_length before]
      exact ih
    · have written := grown.write beyond inside
      have all : (disk.write change).log.take taken = (disk.write change).log := by
        refine List.take_of_length_le ?_
        rw [Disk.write, List.length_append, List.length_singleton]
        omega
      rw [all, written.replayed unwritten]
      refine ⟨⟨written.length_le, fun block below _ => ?_⟩, inside⟩
      exact written.kept size.le (size ▸ below)

/-! ### Appends -/

/-- The last page of a chain of a writer, if it has one, is a page it added. A chain that it was
given starts at a page of another kind. -/
structure TailOk (base : Nat) (kind : PageKind) (disk : Disk R) (tail : ChainTail) : Prop where
  current : ∀ block, tail.current = some block → base ≤ block
  start : StartBelow disk.pages.length tail.start
  foreign : ∀ block, tail.current = none → tail.start = some block →
    block < base ∧ ∃ page, disk.pages[block]? = some page ∧ page.kind ≠ some kind

/-- A page a writer holds is the one at its block, and one it added. -/
structure HeldOk (base : Nat) (kind : PageKind) (disk : Disk R) (held : HeldPage R) : Prop where
  grown : Grown base disk held.disk
  tail : TailOk base kind held.disk held.tail
  beyond : base ≤ held.blkno
  there : held.disk.pages[held.blkno]? = some held.page

structure PlaceOk (base : Nat) (disk : Disk R) (place : ItemRef) : Prop where
  beyond : base ≤ place.blkno
  inside : place.blkno < disk.pages.length

structure AddedOk (base : Nat) (kind : PageKind) (disk : Disk R) (added : Added R) : Prop where
  grown : Grown base disk added.disk
  tail : TailOk base kind added.disk added.tail
  place : PlaceOk base added.disk added.place

variable {kind : PageKind} {tail : ChainTail} {item : StoreItem R}

theorem PlaceOk.later {place : ItemRef} (placed : PlaceOk base disk place)
    (grown : Grown base disk next) : PlaceOk base next place :=
  ⟨placed.beyond, placed.inside.trans_le grown.length_le⟩

theorem TailOk.later (tailOk : TailOk base kind disk tail) (size : base ≤ disk.pages.length)
    (grown : Grown base disk next) : TailOk base kind next tail := by
  refine ⟨tailOk.current, tailOk.start.mono grown.length_le, fun block ended started => ?_⟩
  obtain ⟨below, page, there, kinded⟩ := tailOk.foreign block ended started
  exact ⟨below, page, by rw [grown.kept size below, there], kinded⟩

theorem tailOk_none (disk : Disk R) (pages : Nat) : TailOk base kind disk ⟨none, none, pages⟩ :=
  ⟨fun _ named => (nomatch named), startBelow_none _, fun _ _ named => (nomatch named)⟩

section Pages

variable (size : base ≤ disk.pages.length) (inside : PointersInside disk.pages)
include size inside

theorem extended_inside : PointersInside (disk.write .extend).pages :=
  inside.append storeItem_rising fun page member => by
    rw [List.mem_singleton.mp member]
    exact pageWithin_blank _

theorem extend_grown : Grown base disk (disk.write .extend) :=
  Grown.same.write trivial (extended_inside size inside)

theorem put_grown {block : BlockNumber} (beyond : base ≤ block) {page : StorePage R}
    (within : PageWithin StoreItem.Bounded disk.pages.length page) :
    Grown base disk (disk.write (.put [(block, page)])) := by
  refine Grown.same.write (fun change member => ?_) (inside.set block within)
  rw [List.mem_singleton.mp member]
  exact beyond

theorem extend_length : (disk.write .extend).pages.length = disk.pages.length + 1 := by
  simp [Disk.write, PageWrite.apply]

end Pages

theorem ensureWalTail_grown (size : base ≤ disk.pages.length) (inside : PointersInside disk.pages)
    (tailOk : TailOk base kind disk tail) :
    Yields (fun failure => Grown base disk failure.disk) (HeldOk base kind disk)
      (ensureWalTail kind disk tail) := by
  obtain ⟨start, current, pages⟩ := tail
  unfold ensureWalTail
  cases current with
  | some block =>
    dsimp only
    cases there : disk.pages[block]? with
    | none => exact Grown.same
    | some page =>
      dsimp only
      split_ifs
      · exact Grown.same
      · exact ⟨Grown.same, tailOk, tailOk.current block rfl, there⟩
  | none =>
    cases start with
    | none =>
      have extended := extend_grown size inside
      have longer := extend_length size inside
      have put := put_grown (size.trans extended.length_le) (extended.inside inside) size
        (pageWithin_empty kind (disk.write .extend).pages.length)
      refine ⟨extended.trans put, ?_, size, ?_⟩
      · refine ⟨fun block named => Option.some.inj named ▸ size, fun block named => ?_,
          fun block ended => (nomatch ended)⟩
        rw [← Option.some.inj named]
        exact (Nat.lt_succ_self _).trans_le (longer.ge.trans put.length_le)
      · exact List.getElem?_set_self (longer ▸ Nat.lt_succ_self _)
    | some start =>
      obtain ⟨below, page, there, other⟩ := tailOk.foreign start rfl rfl
      have refused : findWalTail kind disk.pages disk.pages.length start =
          .error .unexpectedPageKind := by
        obtain ⟨fuel, long⟩ : ∃ fuel, disk.pages.length = fuel + 1 :=
          ⟨disk.pages.length - 1, by
            have := (List.getElem?_eq_some_iff.mp there).1
            have positive : 0 < disk.pages.length := Nat.lt_of_le_of_lt (Nat.zero_le _) this
            omega⟩
        rw [long, findWalTail, there]
        exact if_pos other
      dsimp only
      rw [refused]
      exact Grown.same

theorem HeldOk.putItem {held : HeldPage R} (heldOk : HeldOk base kind disk held)
    (size : base ≤ disk.pages.length) (inside : PointersInside disk.pages)
    (bounded : item.Bounded disk.pages.length) :
    AddedOk base kind disk
      ⟨held.disk.write (.put [(held.blkno, addToPage held.page item)]), held.tail,
        ⟨held.blkno, held.page.items.length + 1⟩⟩ := by
  have size' := size.trans heldOk.grown.length_le
  have inside' := heldOk.grown.inside inside
  have put := put_grown size' inside' heldOk.beyond ((inside'.at heldOk.there).addItem
    (storeItem_rising item _ _ heldOk.grown.length_le bounded))
  refine ⟨heldOk.grown.trans put, heldOk.tail.later size' put, heldOk.beyond, ?_⟩
  exact (List.getElem?_eq_some_iff.mp heldOk.there).1.trans_le put.length_le

theorem addWalItem_grown (size : base ≤ disk.pages.length) (inside : PointersInside disk.pages)
    (tailOk : TailOk base kind disk tail) (bounded : item.Bounded disk.pages.length) :
    Yields (fun failure => Grown base disk failure.disk) (AddedOk base kind disk)
      (addWalItem kind disk tail item) := by
  refine Yields.bind (ensureWalTail_grown size inside tailOk) fun held heldOk => ?_
  have size' := size.trans heldOk.grown.length_le
  have inside' := heldOk.grown.inside inside
  dsimp only
  split_ifs with room fresh
  · exact heldOk.putItem size inside bounded
  · have extended := extend_grown size' inside'
    have longer := extend_length size' inside'
    have inside'' := extended.inside inside'
    have held' := (List.getElem?_eq_some_iff.mp heldOk.there).1
    have link : PageWithin StoreItem.Bounded (held.disk.write .extend).pages.length
        (linkTo held.page held.disk.pages.length) :=
      ((inside'.at heldOk.there).mono storeItem_rising extended.length_le).link
        (longer ▸ Nat.lt_succ_self _)
    have new : PageWithin StoreItem.Bounded (held.disk.write .extend).pages.length
        (addToPage (emptyPage kind) item) :=
      (pageWithin_empty kind _).addItem (storeItem_rising item _ _
        (heldOk.grown.length_le.trans extended.length_le) bounded)
    have written : Grown base (held.disk.write .extend) ((held.disk.write .extend).write
        (.put [(held.blkno, linkTo held.page held.disk.pages.length),
          (held.disk.pages.length, addToPage (emptyPage kind) item)])) := by
      refine Grown.same.write (fun change member => ?_) ?_
      · rcases List.mem_cons.mp member with rfl | last
        · exact heldOk.beyond
        · rw [List.mem_singleton.mp last]
          exact size'
      · have linked := inside''.set held.blkno link
        exact linked.set held.disk.pages.length (by rwa [List.length_set])
    have whole := heldOk.grown.trans (extended.trans written)
    refine ⟨whole, ?_, size', ?_⟩
    · refine ⟨fun block named => Option.some.inj named ▸ size', ?_,
        fun block ended => (nomatch ended)⟩
      exact heldOk.tail.start.mono (extended.trans written).length_le
    · exact (Nat.lt_succ_self _).trans_le (longer.ge.trans written.length_le)
  · exact heldOk.grown.trans (extend_grown size' inside')

theorem tailPage {block : BlockNumber} {page : StorePage R}
    (found : (tail.current.bind fun blkno => (disk.pages[blkno]?).map fun page => (blkno, page)) =
      some (block, page)) : tail.current = some block ∧ disk.pages[block]? = some page := by
  obtain ⟨held, named, there⟩ := Option.bind_eq_some_iff.mp found
  obtain ⟨page', there', same⟩ := Option.map_eq_some_iff.mp there
  obtain ⟨rfl, rfl⟩ := Prod.mk.inj same
  exact ⟨named, there'⟩

theorem appendPage_grown (size : base ≤ disk.pages.length) (inside : PointersInside disk.pages)
    (tailOk : TailOk base kind disk tail) :
    HeldOk base kind disk (appendPage kind disk tail) := by
  have extended := extend_grown size inside
  have longer := extend_length size inside
  have inside' := extended.inside inside
  have linked : ∃ linked, Grown base (disk.write .extend) linked ∧
      appendPage kind disk tail = ⟨linked.write (.put [(disk.pages.length, emptyPage kind)]),
        ⟨some (tail.start.getD disk.pages.length), some disk.pages.length, tail.pages + 1⟩,
        disk.pages.length, emptyPage kind⟩ := by
    unfold appendPage
    dsimp only
    cases found : tail.current.bind fun blkno =>
        (disk.pages[blkno]?).map fun page => (blkno, page) with
    | none => exact ⟨_, Grown.same, rfl⟩
    | some entry =>
      obtain ⟨block, page⟩ := entry
      obtain ⟨named, there⟩ := tailPage found
      refine ⟨_, put_grown (size.trans extended.length_le) inside' (tailOk.current block named) ?_,
        rfl⟩
      exact ((inside.at there).mono storeItem_rising extended.length_le).link
        (longer ▸ Nat.lt_succ_self _)
  obtain ⟨linked, grown, same⟩ := linked
  have grown' := extended.trans grown
  have put := put_grown (size.trans grown'.length_le) (grown'.inside inside) size
    (pageWithin_empty kind linked.pages.length)
  have room : disk.pages.length < linked.pages.length :=
    (Nat.lt_succ_self _).trans_le (longer.ge.trans grown.length_le)
  rw [same]
  refine ⟨grown'.trans put, ?_, size, List.getElem?_set_self room⟩
  refine ⟨fun block named => Option.some.inj named ▸ size, fun block named => ?_,
    fun block ended => (nomatch ended)⟩
  rw [← Option.some.inj named]
  cases started : tail.start with
  | none => exact room.trans_le put.length_le
  | some start =>
    exact (tailOk.start start started).trans_le (grown'.trans put).length_le

theorem holdPage_grown (size : base ≤ disk.pages.length) (inside : PointersInside disk.pages)
    (tailOk : TailOk base kind disk tail) :
    HeldOk base kind disk (holdPage kind disk tail item) := by
  unfold holdPage
  cases found : tail.current.bind fun blkno =>
      (disk.pages[blkno]?).map fun page => (blkno, page) with
  | none => exact appendPage_grown size inside tailOk
  | some entry =>
    obtain ⟨block, page⟩ := entry
    obtain ⟨named, there⟩ := tailPage found
    dsimp only
    split_ifs
    · exact ⟨Grown.same, tailOk, tailOk.current block named, there⟩
    · exact appendPage_grown size inside tailOk

/-- **An append to a chain of the writer**, with or without a log. -/
theorem addItem_grown (useWal : Bool) (size : base ≤ disk.pages.length)
    (inside : PointersInside disk.pages) (tailOk : TailOk base kind disk tail)
    (bounded : item.Bounded disk.pages.length) :
    Yields (fun failure => Grown base disk failure.disk) (AddedOk base kind disk)
      (addItem useWal kind disk tail item) := by
  unfold addItem
  split_ifs
  · exact Grown.same
  · exact addWalItem_grown size inside tailOk bounded
  · have held := @holdPage_grown _ _ _ _ _ item size inside tailOk
    unfold addUnloggedItem
    dsimp only
    split_ifs
    · exact held.putItem size inside bounded
    · exact held.grown

theorem linkItem_grown (size : base ≤ disk.pages.length) (inside : PointersInside disk.pages)
    {place : ItemRef} (beyond : base ≤ place.blkno) {relink : StoreItem R → Option (StoreItem R)}
    (bounded : ∀ item changed, relink item = some changed → item.Bounded disk.pages.length →
      changed.Bounded disk.pages.length) :
    Grown base disk (linkItem relink disk place) := by
  unfold linkItem
  cases there : disk.pages[place.blkno]? with
  | none => exact Grown.same
  | some page =>
    dsimp only
    cases found : (page.items[place.offno - 1]?).bind relink with
    | none => exact Grown.same
    | some changed =>
      obtain ⟨item, held, linked⟩ := Option.bind_eq_some_iff.mp found
      have within := inside.at there
      refine put_grown size inside beyond ⟨within.next, fun other member => ?_⟩
      rcases List.mem_or_eq_of_mem_set member with old | rfl
      · exact within.items other old
      · exact bounded item other linked (within.items item (List.mem_of_getElem? held))

theorem linkPostingsChunk_grown (size : base ≤ disk.pages.length)
    (inside : PointersInside disk.pages) {prev : Option ItemRef} {place : ItemRef}
    (before : ∀ there, prev = some there → PlaceOk base disk there)
    (placed : PlaceOk base disk place) :
    Grown base disk (linkPostingsChunk disk prev place) := by
  unfold linkPostingsChunk
  cases prev with
  | none => exact Grown.same
  | some prev =>
    refine linkItem_grown size inside (before prev rfl).beyond fun item changed linked _ => ?_
    cases item with
    | postings tuple =>
      obtain rfl := Option.some.inj linked
      exact fun there named => Option.some.inj named ▸ placed.inside
    | _ => cases linked

theorem linkImpactChunk_grown (size : base ≤ disk.pages.length)
    (inside : PointersInside disk.pages) {prev : Option ItemRef} {place : ItemRef}
    (before : ∀ there, prev = some there → PlaceOk base disk there)
    (placed : PlaceOk base disk place) :
    Grown base disk (linkImpactChunk disk prev place) := by
  unfold linkImpactChunk
  cases prev with
  | none => exact Grown.same
  | some prev =>
    refine linkItem_grown size inside (before prev rfl).beyond fun item changed linked _ => ?_
    cases item with
    | impact tuple =>
      obtain rfl := Option.some.inj linked
      exact fun there named => Option.some.inj named ▸ placed.inside
    | _ => cases linked

end Growth

/-! ### Terms -/

section Terms

variable {R : Type} {base : Nat}

structure SinkOk (base : Nat) (sink : TermSink R) : Prop where
  size : base ≤ sink.disk.pages.length
  inside : PointersInside sink.disk.pages
  lexicon : TailOk base .lexicon sink.disk sink.lexicon
  postings : TailOk base .postings sink.disk sink.postings
  blockMax : TailOk base .blockMax sink.disk sink.blockMax
  impact : TailOk base .impact sink.disk sink.impact

theorem SinkOk.later {sink : TermSink R} {disk : Disk R} (sinkOk : SinkOk base sink)
    (grown : Grown base sink.disk disk) : SinkOk base { sink with disk := disk } :=
  ⟨sinkOk.size.trans grown.length_le, grown.inside sinkOk.inside,
    sinkOk.lexicon.later sinkOk.size grown, sinkOk.postings.later sinkOk.size grown,
    sinkOk.blockMax.later sinkOk.size grown, sinkOk.impact.later sinkOk.size grown⟩

structure SinkFrom (base : Nat) (disk : Disk R) (sink : TermSink R) : Prop where
  grown : Grown base disk sink.disk
  ok : SinkOk base sink

theorem SinkFrom.trans {disk : Disk R} {sink next : TermSink R} (first : SinkFrom base disk sink)
    (second : SinkFrom base sink.disk next) : SinkFrom base disk next :=
  ⟨first.grown.trans second.grown, second.ok⟩

/-- The chunks of a term are on pages the writer added. -/
structure RunOk (base : Nat) (disk : Disk R) (run : PostingsRun) : Prop where
  first : ∀ place, run.first = some place → PlaceOk base disk place
  prev : ∀ place, run.prev = some place → PlaceOk base disk place

theorem runOk_start (disk : Disk R) : RunOk base disk .start :=
  ⟨fun _ named => (nomatch named), fun _ named => (nomatch named)⟩

theorem RunOk.later {disk next : Disk R} {run : PostingsRun} (runOk : RunOk base disk run)
    (grown : Grown base disk next) : RunOk base next run :=
  ⟨fun place named => (runOk.first place named).later grown,
    fun place named => (runOk.prev place named).later grown⟩

theorem RunOk.add {disk : Disk R} {run : PostingsRun} (runOk : RunOk base disk run)
    {place : ItemRef} (placed : PlaceOk base disk place) (bytes chunkCount : Nat) :
    RunOk base disk ⟨run.first.or (some place), some place, bytes, chunkCount⟩ := by
  refine ⟨fun there named => ?_, fun there named => Option.some.inj named ▸ placed⟩
  cases first : run.first with
  | none =>
    rw [first] at named
    exact Option.some.inj named ▸ placed
  | some earlier =>
    rw [first] at named
    exact Option.some.inj named ▸ runOk.first earlier first

theorem encodePostingsTuple_bounded {quantizeTfNorm : Nat → Nat → Fin (2 ^ 16)} {tfNorm : Bool}
    {termId chunkNo : Nat} {terms : List TermPosting} {tuple : PostingsTuple}
    (encoded : encodePostingsTuple quantizeTfNorm tfNorm termId chunkNo terms = .ok tuple)
    (limit : Nat) : (StoreItem.postings tuple : StoreItem R).Bounded limit := by
  obtain ⟨pairs, -, made⟩ := bind_ok encoded
  rw [← Except.ok.inj made]
  exact refBelow_none limit

variable [Field R] [LinearOrder R] (options : WriterOptions R) (docs : DocTotals)

/-- What a writer of chunks gets to from a disk. -/
structure ChunksFrom (base : Nat) (disk : Disk R) (state : TermSink R × PostingsRun) : Prop where
  sink : SinkFrom base disk state.1
  run : RunOk base state.1.disk state.2

theorem writeLinkedChunk_grown {disk : Disk R} {state : TermSink R × PostingsRun}
    (from' : ChunksFrom base disk state) (chunk : List TermPosting) :
    Yields (fun failure => Grown base disk failure.disk) (ChunksFrom base disk)
      (writeLinkedChunk options docs state chunk) := by
  obtain ⟨sink, run⟩ := state
  obtain ⟨⟨grown, ok⟩, runOk⟩ := from'
  have encodes : Yields (fun failure => Grown base disk failure.disk)
      (fun tuple : PostingsTuple => ∀ limit, (StoreItem.postings tuple : StoreItem R).Bounded limit)
      (encoded sink.disk (encodePostingsTuple (quantizeTfNorm options docs)
        options.precomputeTfNorm sink.termId run.chunkCount chunk)) := by
    cases made : encodePostingsTuple (quantizeTfNorm options docs) options.precomputeTfNorm
        sink.termId run.chunkCount chunk with
    | error error => exact grown
    | ok tuple => exact encodePostingsTuple_bounded made
  refine Yields.bind encodes fun tuple bounded => ?_
  have adds := addItem_grown options.useWal ok.size ok.inside ok.postings (bounded _)
  refine Yields.bind (adds.imp (fun _ failed => grown.trans failed) fun _ added => added)
    fun added addedOk => ?_
  have ok' := ok.later addedOk.grown
  have link := linkPostingsChunk_grown ok'.size ok'.inside
    (fun there named => (runOk.prev there named).later addedOk.grown) addedOk.place
  refine ⟨⟨(grown.trans addedOk.grown).trans link, ?_⟩, ?_⟩
  · have later := ok'.later link
    exact ⟨later.size, later.inside, later.lexicon, addedOk.tail.later ok'.size link,
      later.blockMax, later.impact⟩
  · exact ((runOk.later addedOk.grown).later link).add (addedOk.place.later link) _ _

theorem writePostings_grown {disk : Disk R} {sink : TermSink R} (from' : SinkFrom base disk sink)
    (postings : List TermPosting) :
    Yields (fun failure => Grown base disk failure.disk) (ChunksFrom base disk)
      (writePostings options docs sink postings) :=
  Yields.foldlM (ChunksFrom base disk) ⟨from', runOk_start _⟩ fun _ chunk _ held =>
    writeLinkedChunk_grown options docs held chunk

theorem writeBlockMax_grown {disk : Disk R} {sink : TermSink R} (from' : SinkFrom base disk sink)
    (firstNodeId lastNodeId maxTf : Nat) :
    Yields (fun failure => Grown base disk failure.disk)
      (fun written => SinkFrom base disk written.1 ∧ Grown base sink.disk written.1.disk ∧
        PlaceOk base written.1.disk written.2)
      (writeBlockMax options sink firstNodeId lastNodeId maxTf) := by
  obtain ⟨grown, ok⟩ := from'
  have adds := @addItem_grown _ _ _ _ _ (.blockMax ⟨sink.termId, firstNodeId, lastNodeId, maxTf⟩)
    options.useWal ok.size ok.inside ok.blockMax trivial
  refine Yields.bind (adds.imp (fun _ failed => grown.trans failed) fun _ added => added)
    fun added addedOk => ?_
  have later := ok.later addedOk.grown
  exact ⟨⟨grown.trans addedOk.grown, later.size, later.inside, later.lexicon, later.postings,
    addedOk.tail, later.impact⟩, addedOk.grown, addedOk.place⟩

theorem writeImpactTuple_grown {disk : Disk R} {state : TermSink R × PostingsRun}
    (from' : ChunksFrom base disk state) (entries : List (ImpactTupleEntry R)) :
    Yields (fun failure => Grown base disk failure.disk) (ChunksFrom base disk)
      (writeImpactTuple options state entries) := by
  obtain ⟨sink, run⟩ := state
  obtain ⟨⟨grown, ok⟩, runOk⟩ := from'
  have adds := @addItem_grown _ _ _ _ _ (.impact ⟨sink.termId, none, entries⟩) options.useWal
    ok.size ok.inside ok.impact (refBelow_none _)
  refine Yields.bind (adds.imp (fun _ failed => grown.trans failed) fun _ added => added)
    fun added addedOk => ?_
  have ok' := ok.later addedOk.grown
  have link := linkImpactChunk_grown ok'.size ok'.inside
    (fun there named => (runOk.prev there named).later addedOk.grown) addedOk.place
  refine ⟨⟨(grown.trans addedOk.grown).trans link, ?_⟩, ?_⟩
  · have later := ok'.later link
    exact ⟨later.size, later.inside, later.lexicon, later.postings, later.blockMax,
      addedOk.tail.later ok'.size link⟩
  · exact ((runOk.later addedOk.grown).later link).add (addedOk.place.later link) _ _

theorem writeImpactHead_grown {disk : Disk R} {sink : TermSink R} (from' : SinkFrom base disk sink)
    (entries : List (ImpactTupleEntry R)) (df : Nat) :
    Yields (fun failure => Grown base disk failure.disk)
      (fun written => SinkFrom base disk written.1 ∧
        ∀ place, written.2.1 = some place → PlaceOk base written.1.disk place)
      (writeImpactHead options docs sink entries df) := by
  unfold writeImpactHead
  split_ifs
  · exact ⟨from', fun _ named => (nomatch named)⟩
  · refine Yields.bind (Yields.foldlM (ChunksFrom base disk) ⟨from', runOk_start _⟩
      fun _ entries _ held => writeImpactTuple_grown options held entries) fun written held => ?_
    exact ⟨held.sink, held.run.first⟩

theorem writeLexiconItem_grown {disk : Disk R} {sink : TermSink R} (from' : SinkFrom base disk sink)
    (name : TermName) (totals : TermTotals) {run : PostingsRun} {blockMax : ItemRef}
    {impact : Option ItemRef} (impactCount : Nat) (runOk : RunOk base sink.disk run)
    (blockMaxOk : PlaceOk base sink.disk blockMax)
    (impactOk : ∀ place, impact = some place → PlaceOk base sink.disk place) :
    Yields (fun failure => Grown base disk failure.disk) (SinkFrom base disk)
      (writeLexiconItem options sink name totals run blockMax impact impactCount) := by
  obtain ⟨grown, ok⟩ := from'
  have adds := @addItem_grown _ _ _ _ _
    (.lexicon ⟨name.termHash, name.term, sink.termId, totals.df, totals.cf, run.first,
      run.chunkCount, run.bytes, some blockMax, impact, impactCount⟩)
    options.useWal ok.size ok.inside ok.lexicon
    ⟨fun place named => (runOk.first place named).inside,
      fun place named => Option.some.inj named ▸ blockMaxOk.inside,
      fun place named => (impactOk place named).inside⟩
  refine Yields.bind (adds.imp (fun _ failed => grown.trans failed) fun _ added => added)
    fun added addedOk => ?_
  have later := ok.later addedOk.grown
  exact ⟨grown.trans addedOk.grown, later.size, later.inside, addedOk.tail, later.postings,
    later.blockMax, later.impact⟩

theorem finishTerm_grown {disk : Disk R} {written : TermSink R × PostingsRun}
    (from' : ChunksFrom base disk written) (name : TermName) (totals : TermTotals)
    (entries : List (ImpactTupleEntry R)) :
    Yields (fun failure => Grown base disk failure.disk) (SinkFrom base disk)
      (finishTerm options docs name written totals entries) := by
  refine Yields.bind (writeBlockMax_grown options from'.sink _ _ _) fun blockMax ok => ?_
  obtain ⟨sink, grown, placed⟩ := ok
  -- the head is written from the disk that the block maximum leaves
  have heads := @writeImpactHead_grown _ base _ _ options docs _ _ ⟨Grown.same, sink.ok⟩
    entries totals.df
  refine Yields.bind (heads.imp (fun _ failed => sink.grown.trans failed) fun _ head => head)
    fun impact ⟨head, impactOk⟩ => ?_
  exact writeLexiconItem_grown options (sink.trans head) name totals impact.2.2
    ((from'.run.later grown).later head.grown) (placed.later head.grown) impactOk

theorem writeTerm_grown {disk : Disk R} {sink : TermSink R} (from' : SinkFrom base disk sink)
    (name : TermName) (postings : List TermPosting) :
    Yields (fun failure => Grown base disk failure.disk) (SinkFrom base disk)
      (writeTerm options docs sink name postings) := by
  refine Yields.bind (writePostings_grown options docs from' postings) fun written held => ?_
  exact finishTerm_grown options docs held name _ _

theorem writeTermFromRuns_grown {disk : Disk R} {sink : TermSink R}
    (from' : SinkFrom base disk sink) (name : TermName) (postings : List TermPosting) :
    Yields (fun failure => Grown base disk failure.disk) (SinkFrom base disk)
      (writeTermFromRuns options docs sink name postings) := by
  have flush (scan : TermScan R) (held : ChunksFrom base disk scan.written) :
      Yields (fun failure => Grown base disk failure.disk)
        (fun scan : TermScan R => ChunksFrom base disk scan.written)
        (flushChunk options docs scan) :=
    Yields.bind (writeLinkedChunk_grown options docs held scan.chunk) fun written held => held
  have scans := @Yields.foldlM _ _ _ (fun failure => Grown base disk failure.disk)
    (scanPosting options docs) (fun scan : TermScan R => ChunksFrom base disk scan.written)
    postings ⟨(sink, .start), [], .start, []⟩ ⟨from', runOk_start _⟩
    fun scan posting _ held => by
      unfold scanPosting
      dsimp only
      split_ifs
      · exact flush _ held
      · exact held
  refine Yields.bind scans fun scan held => ?_
  have rest : Yields (fun failure => Grown base disk failure.disk)
      (fun scan : TermScan R => ChunksFrom base disk scan.written)
      (flushRest options docs scan) := by
    unfold flushRest
    split_ifs
    · exact flush scan held
    · exact held
  refine Yields.bind rest fun scan held => ?_
  exact finishTerm_grown options docs held name _ _

/-- **The terms of a collector**, in memory or in runs. -/
theorem writeLexiconAndPostings_grown (collector : Collector) {disk : Disk R} {sink : TermSink R}
    (from' : SinkFrom base disk sink) :
    Yields (fun failure => Grown base disk failure.disk) (SinkFrom base disk)
      (writeLexiconAndPostings options docs collector sink) := by
  unfold writeLexiconAndPostings
  split_ifs
  · exact Yields.foldlM (SinkFrom base disk) from' fun _ group _ held =>
      writeTermFromRuns_grown options docs held (groupName group) (groupPostings group)
  · exact Yields.foldlM (SinkFrom base disk) from' fun _ group _ held =>
      writeTerm_grown options docs held (groupName group) (groupPostings group)

/-! ### The base -/

structure DocStatsFrom (base : Nat) (disk : Disk R) (state : Disk R × ChainTail × Nat) : Prop where
  grown : Grown base disk state.1
  tail : TailOk base .docStats state.1 state.2.1

theorem writeDocStatsTuple_grown {disk : Disk R} (size : base ≤ disk.pages.length)
    (inside : PointersInside disk.pages) {state : Disk R × ChainTail × Nat}
    (held : DocStatsFrom base disk state) (docLens : List Nat) :
    Yields (fun failure => Grown base disk failure.disk) (DocStatsFrom base disk)
      (writeDocStatsTuple options state docLens) := by
  have adds := @addItem_grown _ _ _ _ _ (.docStats ⟨state.2.2, docLens⟩) options.useWal
    (size.trans held.grown.length_le) (held.grown.inside inside) held.tail trivial
  refine Yields.bind (adds.imp (fun _ failed => held.grown.trans failed) fun _ added => added)
    fun added addedOk => ?_
  exact ⟨held.grown.trans addedOk.grown, addedOk.tail⟩

theorem writeDocStats_grown {disk : Disk R} (size : base ≤ disk.pages.length)
    (inside : PointersInside disk.pages) (documents : List BuildDoc) (tidNodeCount : Nat) :
    Yields (fun failure => Grown base disk failure.disk)
      (fun written => Grown base disk written.1 ∧ StartBelow written.1.pages.length written.2.1)
      (writeDocStats options disk documents tidNodeCount) := by
  unfold writeDocStats
  split_ifs
  · exact ⟨Grown.same, startBelow_none _⟩
  · exact Grown.same
  · refine Yields.bind (Yields.foldlM (DocStatsFrom base disk)
      ⟨Grown.same, tailOk_none disk 0⟩ fun _ docLens _ held =>
        writeDocStatsTuple_grown options size inside held docLens) fun written held => ?_
    exact ⟨held.grown, held.tail.start⟩

/-- The chain starts of a base are blocks of the relation. -/
structure BaseOk (base : Nat) (disk : Disk R) (written : BasePages R) : Prop where
  sink : SinkFrom base disk written.sink
  docStats : StartBelow written.sink.disk.pages.length written.docStatsStartBlkno

/-- **The writer of the base** writes only to pages it added. The chain of heads starts at the first
block, which is a page of another kind. -/
theorem writeBasePages_grown {disk : Disk R} (size : base ≤ disk.pages.length)
    (inside : PointersInside disk.pages) {metapage : StorePage R}
    (first : disk.pages[0]? = some metapage) (other : metapage.kind ≠ some .impact)
    (positive : 0 < base) (collector : Collector) (tidNodeCount : Nat) :
    Yields (fun failure => Grown base disk failure.disk) (BaseOk base disk)
      (writeBasePages options disk collector tidNodeCount) := by
  refine Yields.bind (writeDocStats_grown options size inside collector.docs tidNodeCount)
    fun docStats ⟨grown, started⟩ => ?_
  have size' := size.trans grown.length_le
  have impact : TailOk base .impact docStats.1 ⟨some 0, none, 0⟩ := by
    refine ⟨fun _ named => (nomatch named), fun block named => ?_, fun block _ named => ?_⟩
    · rw [← Option.some.inj named]
      exact positive.trans_le size'
    · rw [← Option.some.inj named]
      exact ⟨positive, metapage, by rw [grown.kept size positive, first], other⟩
  have sink : SinkFrom base docStats.1 (startSink docStats.1) :=
    ⟨Grown.same, size', grown.inside inside, tailOk_none _ _, tailOk_none _ _, tailOk_none _ _,
      impact⟩
  have terms := writeLexiconAndPostings_grown options
    ⟨collector.docs.length, collector.totalDocLen, docStats.2.2⟩ collector sink
  refine Yields.bind (terms.imp (fun _ failed => grown.trans failed) fun _ held => held)
    fun written held => ?_
  exact ⟨⟨grown.trans held.grown, held.ok⟩, started.mono held.grown.length_le⟩

end Terms

end TurboHybrid.Store
