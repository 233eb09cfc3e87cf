/-
**Updating an adjacency tuple through its cached location.**

An insert rewrites the neighbours of a node on one level. It tries the location its cache has for
the tuple, and scans the chain of adjacency pages where the tuple is not there. The scan goes on
from the block that was tried.

* `scanAdj_found`, `scanAdj_missed`: the scan from a block of the chain finds the tuple where it is
  not before this block;
* `updateAdjTuple_right_iff`: with a cache the update is right where the location is absent, or no
  later in the chain than the tuple;
* `tuple_before_hint`: a tuple before the block of its cached location is reported missing.
-/
import TurboHybrid.Graph.Repair
import TurboHybrid.Library.PageChain

namespace TurboHybrid.Graph.AdjUpdate

open TurboHybrid.Library

/-! ### Pages and the cache -/

inductive PageKind
  | quantAdj
  | other
  deriving DecidableEq, Repr

/-- `PgturbohybridGraphAdjTupleData`; the words behind the header are absent where the item is
shorter than the header. -/
structure AdjTuple where
  type : Nat
  level : Nat
  count : Nat
  nodeId : Nat
  neighbors : Option (List Nat)
  deriving DecidableEq, Repr

abbrev AdjPage := Page PageKind (Option AdjTuple)

def adjTupleType : Nat := 0x52

structure AdjMeta where
  m : Nat
  tqNodeCount : Nat
  tqAdjStartBlkno : Option Nat

/-- The locations, where block and offset are valid, and the neighbours, by slots. -/
structure AdjCache where
  locations : Nat → Option (Nat × Nat)
  neighbors : Nat → List Nat

def adjSlot (info : AdjMeta) (nodeId level : Nat) : Nat := nodeId * levelCapacity info.m + level

def adjRecordCount (info : AdjMeta) : Nat := info.tqNodeCount * levelCapacity info.m

inductive AdjError
  | invalidUpdate
  | missingPage
  | absentBlock
  | corruptTuple
  | lacksCapacity
  | missingTuple
  deriving DecidableEq, Repr

/-! ### The update -/

def AdjTuple.isFor (tuple : AdjTuple) (nodeId level : Nat) : Bool :=
  decide (tuple.type = adjTupleType ∧ tuple.nodeId = nodeId ∧ tuple.level = level)

/-- The tuple with new neighbours, and zeros behind them. -/
def AdjTuple.rewrite (tuple : AdjTuple) (neighbors : List Nat) : AdjTuple :=
  { tuple with
    count := neighbors.length
    neighbors := tuple.neighbors.map fun words =>
      neighbors ++ List.replicate (words.length - neighbors.length) 0 }

def rewriteAt (pages : List AdjPage) (blkno position : Nat) (neighbors : List Nat) :
    List AdjPage :=
  pages.modify blkno fun page =>
    { page with items := page.items.modify position (Option.map (AdjTuple.rewrite · neighbors)) }

section Update

variable (pages : List AdjPage) (nodeId level : Nat) (neighbors : List Nat)

/-- The path through a cached location: whether the tuple is there, with room. A tuple shorter than
its header has a capacity below zero here. -/
def hintHolds (blkno position : Nat) : Except AdjError Bool :=
  match pages[blkno]? with
  | none => .error .absentBlock
  | some page =>
    if page.kind ≠ some .quantAdj then .ok false
    else
      match page.items[position]? with
      | some (some tuple) =>
        .ok (tuple.isFor nodeId level && decide (∃ words ∈ tuple.neighbors,
          neighbors.length ≤ words.length))
      | _ => .ok false

/-- The first tuple for the node and the level among the items of a page. -/
def findAdj (items : List (Option AdjTuple)) : Option Nat :=
  items.findIdx? fun item => item.any (AdjTuple.isFor · nodeId level)

def checkAdj (tuple : Option AdjTuple) : Except AdjError Unit :=
  match tuple.bind AdjTuple.neighbors with
  | none => .error .corruptTuple
  | some words => if words.length < neighbors.length then .error .lacksCapacity else .ok ()

/-- The scan of the chain: the location of the tuple. -/
def scanAdj : Nat → Option Nat → Except AdjError (Nat × Nat)
  | 0, _ => .error .missingTuple
  | _ + 1, none => .error .missingTuple
  | fuel + 1, some blkno =>
    match pages[blkno]? with
    | none => .error .missingTuple
    | some page =>
      if page.kind ≠ some .quantAdj then .error .missingTuple
      else
        match findAdj nodeId level page.items with
        | some position => do
          checkAdj neighbors (page.items.getD position none)
          return (blkno, position)
        | none =>
          if page.next = some blkno then .error .missingTuple else scanAdj fuel page.next

/-- Where the tuple is found: by its cached location, else by the scan, which starts at the block
that `blkno` holds then. -/
def locateAdj (hint : Option (Nat × Nat)) (start : Nat) : Except AdjError (Nat × Nat) :=
  match hint with
  | none => scanAdj pages nodeId level neighbors pages.length (some start)
  | some (blkno, position) => do
    if ← hintHolds pages nodeId level neighbors blkno position then return (blkno, position)
    else scanAdj pages nodeId level neighbors pages.length (some blkno)

/-- `PgturbohybridGraphUpdateAdjTuple`: the pages and the cache, if there is one. -/
def updateAdjTuple (info : AdjMeta) (cache : Option AdjCache) :
    Except AdjError (List AdjPage × Option AdjCache) :=
  if info.tqNodeCount ≤ nodeId ∨ levelCapacity info.m ≤ level ∨
      levelM info.m level < neighbors.length then .error .invalidUpdate
  else
    match info.tqAdjStartBlkno with
    | none => .error .missingPage
    | some start =>
      let slot := adjSlot info nodeId level
      let inside := decide (slot < adjRecordCount info)
      let hint := if inside then cache.bind fun cache => cache.locations slot else none
      do
        let (blkno, position) ← locateAdj pages nodeId level neighbors hint start
        return (rewriteAt pages blkno position neighbors, cache.map fun cache =>
          { locations := Function.update cache.locations slot (some (blkno, position))
            neighbors :=
              if inside then Function.update cache.neighbors slot neighbors
              else cache.neighbors })

end Update

/-! ### The chain with the tuple -/

/-- An update of the one tuple of a node and a level on a chain, with capacity for the neighbours;
the cached location is on a page of the chain or on a page of another kind. -/
structure AdjCase where
  pages : List AdjPage
  info : AdjMeta
  cache : AdjCache
  nodeId : Nat
  level : Nat
  neighbors : List Nat
  node : nodeId < info.tqNodeCount
  stored : level < levelCapacity info.m
  few : neighbors.length ≤ levelM info.m level
  blocks : List Nat
  chain : IsChain .quantAdj pages info.tqAdjStartBlkno blocks
  blkno : Nat
  position : Nat
  page : AdjPage
  tuple : AdjTuple
  words : List Nat
  inside : blkno ∈ blocks
  there : pages[blkno]? = some page
  item : page.items[position]? = some (some tuple)
  isFor : tuple.isFor nodeId level = true
  body : tuple.neighbors = some words
  room : neighbors.length ≤ words.length
  single : ∀ other ∈ blocks, ∀ page', pages[other]? = some page' → ∀ place tuple',
    page'.items[place]? = some (some tuple') → tuple'.isFor nodeId level = true →
      other = blkno ∧ place = position
  hinted : ∀ block place, cache.locations (adjSlot info nodeId level) = some (block, place) →
    block ∈ blocks ∨ ∀ page', pages[block]? = some page' → page'.kind ≠ some .quantAdj

namespace AdjCase

variable (case : AdjCase)

def slot : Nat := adjSlot case.info case.nodeId case.level

def update (cache : Option AdjCache) : Except AdjError (List AdjPage × Option AdjCache) :=
  updateAdjTuple case.pages case.nodeId case.level case.neighbors case.info cache

/-- **A right update**: the pages are those of an update without a cache, which rewrites the tuple
and nothing else, and the cache has the neighbours and the location. -/
def IsRight (result : List AdjPage × Option AdjCache) : Prop :=
  case.update none = .ok (result.1, none) ∧
    result.1 = rewriteAt case.pages case.blkno case.position case.neighbors ∧
    result.2 = some
      { locations :=
          Function.update case.cache.locations case.slot (some (case.blkno, case.position))
        neighbors := Function.update case.cache.neighbors case.slot case.neighbors }

/-- **The cached location** is absent, or on a page of the chain that is not behind the tuple's. -/
def HintKept : Prop :=
  ∀ block place, case.cache.locations case.slot = some (block, place) →
    ∃ before after, case.blocks = before ++ block :: after ∧ case.blkno ∈ block :: after

/-! ### The scan -/

variable {case}

theorem findAdj_eq {block : Nat} (known : block ∈ case.blocks) {page : AdjPage}
    (there : case.pages[block]? = some page) :
    findAdj case.nodeId case.level page.items =
      if block = case.blkno then some case.position else none := by
  have unique (place : Nat) (found : (page.items[place]?.join.any
      (AdjTuple.isFor · case.nodeId case.level)) = true) :
        block = case.blkno ∧ place = case.position := by
    obtain ⟨tuple, here, isFor⟩ := Option.any_eq_true .. |>.mp found
    exact case.single block known page there place tuple (Option.join_eq_some_iff.mp here) isFor
  split_ifs with here
  · subst here
    obtain rfl := Option.some.inj (case.there.symm.trans there)
    obtain ⟨bound, item⟩ := List.getElem?_eq_some_iff.mp case.item
    rw [findAdj, List.findIdx?_eq_some_iff_getElem]
    refine ⟨bound, ?_, fun place before found => ?_⟩
    · rw [item]
      exact case.isFor
    · refine before.ne (unique place ?_).2
      rw [List.getElem?_eq_getElem (before.trans bound), Option.join_some]
      exact found
  · rw [findAdj, List.findIdx?_eq_none_iff]
    intro item member
    obtain ⟨place, at_⟩ := List.mem_iff_getElem?.mp member
    refine Bool.eq_false_iff.mpr fun found => here (unique place ?_).1
    rw [at_, Option.join_some]
    exact found

theorem checkAdj_tuple : checkAdj case.neighbors (some case.tuple) = .ok () := by
  rw [checkAdj, Option.bind_some, case.body]
  exact if_neg case.room.not_gt

theorem scanAdj_page {block fuel : Nat} (known : block ∈ case.blocks) {page : AdjPage}
    (there : case.pages[block]? = some page) :
    scanAdj case.pages case.nodeId case.level case.neighbors (fuel + 1) (some block) =
      if block = case.blkno then .ok (case.blkno, case.position)
      else if page.next = some block then .error .missingTuple
      else scanAdj case.pages case.nodeId case.level case.neighbors fuel page.next := by
  obtain ⟨page', there', kinded⟩ := case.chain.kind_eq known
  obtain rfl := Option.some.inj (there.symm.trans there')
  rw [scanAdj, there]
  dsimp only
  rw [if_neg (not_not.mpr kinded), findAdj_eq known there]
  by_cases here : block = case.blkno
  · subst here
    obtain rfl := Option.some.inj (case.there.symm.trans there)
    rw [if_pos rfl, if_pos rfl]
    dsimp only
    rw [List.getD_eq_getElem?_getD, case.item, Option.getD_some, checkAdj_tuple]
    rfl
  · rw [if_neg here, if_neg here]

/-- **The scan from a block of the chain** finds the tuple, where it is not before the block. -/
theorem scanAdj_suffix {before after : List Nat} {block fuel : Nat}
    (split : case.blocks = before ++ block :: after) (enough : after.length < fuel) :
    scanAdj case.pages case.nodeId case.level case.neighbors fuel (some block) =
      if case.blkno ∈ block :: after then .ok (case.blkno, case.position)
      else .error .missingTuple := by
  induction after generalizing before block fuel with
  | nil =>
    obtain ⟨fuel, rfl⟩ : ∃ less, fuel = less + 1 := ⟨fuel - 1, by omega⟩
    have chain := case.chain
    rw [split] at chain
    obtain ⟨-, page, there, -, ended⟩ := chain.suffix
    rw [scanAdj_page (by simp [split]) there, show page.next = none from ended]
    simp only [List.mem_singleton, eq_comm (a := block), reduceCtorEq, if_false]
    cases fuel <;> rfl
  | cons next rest ih =>
    obtain ⟨fuel, rfl⟩ : ∃ less, fuel = less + 1 := ⟨fuel - 1, by omega⟩
    have chain := case.chain
    rw [split] at chain
    obtain ⟨-, page, there, -, later⟩ := chain.suffix
    have different : next ≠ block := by
      rintro rfl
      exact (List.nodup_cons.mp chain.suffix.nodup).1 List.mem_cons_self
    rw [scanAdj_page (by simp [split]) there, show page.next = some next from later.1]
    by_cases here : block = case.blkno
    · rw [if_pos here, if_pos (here ▸ List.mem_cons_self)]
    · rw [if_neg here, if_neg (by simpa using different),
        @ih (before ++ [block]) next fuel (by simpa using split) (by simpa using enough)]
      simp only [List.mem_cons, Ne.symm here, false_or]

/-! ### The location -/

theorem hintHolds_chain {block place : Nat} (known : block ∈ case.blocks) :
    hintHolds case.pages case.nodeId case.level case.neighbors block place =
      .ok (decide (block = case.blkno ∧ place = case.position)) := by
  obtain ⟨page, there, kinded⟩ := case.chain.kind_eq known
  rw [hintHolds, there]
  dsimp only
  rw [if_neg (not_not.mpr kinded)]
  by_cases same : block = case.blkno ∧ place = case.position
  · obtain ⟨rfl, rfl⟩ := same
    obtain rfl := Option.some.inj (case.there.symm.trans there)
    rw [case.item]
    dsimp only
    rw [case.isFor, case.body]
    simpa using case.room
  · rw [decide_eq_false same]
    rcases item : page.items[place]? with _ | _ | tuple
    · rfl
    · rfl
    · have other : tuple.isFor case.nodeId case.level = false :=
        Bool.eq_false_iff.mpr fun isFor =>
          same (case.single block known page there place tuple item isFor)
      dsimp only
      rw [other]
      rfl

theorem locateAdj_other {block place start : Nat}
    (other : ∀ page, case.pages[block]? = some page → page.kind ≠ some .quantAdj) :
    ∃ error, locateAdj case.pages case.nodeId case.level case.neighbors (some (block, place))
      start = .error error := by
  rw [locateAdj, hintHolds]
  rcases there : case.pages[block]? with _ | page
  · exact ⟨_, rfl⟩
  · dsimp only
    rw [if_pos (other page there)]
    refine ⟨.missingTuple, ?_⟩
    show scanAdj _ _ _ _ _ _ = _
    rcases length : case.pages.length with _ | fuel
    · rfl
    · rw [scanAdj, there]
      exact if_pos (other page there)

theorem length_after_lt {before after : List Nat} {block : Nat}
    (split : case.blocks = before ++ block :: after) : after.length < case.pages.length := by
  have bound := case.chain.length_le
  rw [split, List.length_append, List.length_cons] at bound
  omega

theorem locateAdj_plain {start : Nat} (started : case.info.tqAdjStartBlkno = some start) :
    locateAdj case.pages case.nodeId case.level case.neighbors none start =
      .ok (case.blkno, case.position) := by
  rcases blocks : case.blocks with _ | ⟨first, rest⟩
  · have inside := case.inside
    rw [blocks] at inside
    cases inside
  · have first_ := case.chain.start_eq
    rw [started, blocks] at first_
    obtain rfl := Option.some.inj first_
    have bound := @length_after_lt case [] _ _ blocks
    rw [locateAdj, @scanAdj_suffix case [] rest start _ blocks bound, if_pos (blocks ▸ case.inside)]

/-- **The location is found** through a cached one that is kept, and only then. -/
theorem locateAdj_eq {start : Nat} (started : case.info.tqAdjStartBlkno = some start) :
    (case.HintKept ∧ locateAdj case.pages case.nodeId case.level case.neighbors
        (case.cache.locations case.slot) start = .ok (case.blkno, case.position)) ∨
      ¬case.HintKept ∧ ∃ error, locateAdj case.pages case.nodeId case.level case.neighbors
        (case.cache.locations case.slot) start = .error error := by
  rcases hint : case.cache.locations case.slot with _ | ⟨block, place⟩
  · refine .inl ⟨fun block place named => ?_, locateAdj_plain started⟩
    exact absurd (hint.symm.trans named) (Option.some_ne_none _).symm
  · rcases case.hinted block place hint with known | other
    · obtain ⟨before, after, split⟩ := List.append_of_mem known
      have scan := scanAdj_suffix split (length_after_lt split)
      have holds := @hintHolds_chain case block place known
      have kept : case.HintKept ↔ case.blkno ∈ block :: after := by
        refine ⟨fun keeps => ?_, fun inside block' place' named => ?_⟩
        · obtain ⟨before', after', split', inside⟩ := keeps block place hint
          have distinct := case.chain.nodup
          rw [split, List.nodup_append, List.nodup_cons] at distinct
          obtain ⟨-, ⟨behind, -⟩, apart⟩ := distinct
          obtain ⟨-, -, rfl⟩ := (List.append_cons_inj_of_notMem
            (fun member => apart _ member _ List.mem_cons_self rfl) behind).mp
              (split.symm.trans split')
          exact inside
        · obtain ⟨rfl, rfl⟩ := Prod.mk.inj (Option.some.inj (hint.symm.trans named))
          exact ⟨before, after, split, inside⟩
      rw [kept, locateAdj, holds]
      by_cases same : block = case.blkno ∧ place = case.position
      · obtain ⟨rfl, rfl⟩ := same
        refine .inl ⟨List.mem_cons_self, ?_⟩
        rw [decide_eq_true ⟨rfl, rfl⟩]
        rfl
      · rw [decide_eq_false same]
        by_cases inside : case.blkno ∈ block :: after
        · exact .inl ⟨inside, scan.trans (if_pos inside)⟩
        · exact .inr ⟨inside, _, scan.trans (if_neg inside)⟩
    · refine .inr ⟨fun keeps => ?_, locateAdj_other other⟩
      obtain ⟨before, after, split, -⟩ := keeps block place hint
      obtain ⟨page, there, kinded⟩ := case.chain.kind_eq (show block ∈ case.blocks by simp [split])
      exact other page there kinded

/-! ### The update -/

theorem started (case : AdjCase) : ∃ start, case.info.tqAdjStartBlkno = some start := by
  rcases blocks : case.blocks with _ | ⟨first, rest⟩
  · have inside := case.inside
    rw [blocks] at inside
    cases inside
  · exact ⟨first, case.chain.start_eq.trans (by rw [blocks]; rfl)⟩

theorem slot_lt (case : AdjCase) : case.slot < adjRecordCount case.info := by
  have rest := case.stored
  calc case.slot < case.nodeId * levelCapacity case.info.m + levelCapacity case.info.m :=
        Nat.add_lt_add_left rest _
    _ = (case.nodeId + 1) * levelCapacity case.info.m := (Nat.succ_mul ..).symm
    _ ≤ adjRecordCount case.info := Nat.mul_le_mul_right _ case.node

theorem update_eq (case : AdjCase) (cache : Option AdjCache) {start : Nat}
    (started : case.info.tqAdjStartBlkno = some start) :
    case.update cache = (locateAdj case.pages case.nodeId case.level case.neighbors
      (cache.bind fun cache => cache.locations case.slot) start).map fun found =>
        (rewriteAt case.pages found.1 found.2 case.neighbors, cache.map fun cache =>
          { locations := Function.update cache.locations case.slot (some found)
            neighbors := Function.update cache.neighbors case.slot case.neighbors }) := by
  have slotted : decide (adjSlot case.info case.nodeId case.level < adjRecordCount case.info) =
      true := decide_eq_true case.slot_lt
  have node := case.node
  have stored := case.stored
  have few := case.few
  rw [update, updateAdjTuple, if_neg (by omega), started]
  dsimp only
  rw [slotted, if_pos rfl]
  simp only [if_pos]
  rfl

theorem update_plain (case : AdjCase) : case.update none =
    .ok (rewriteAt case.pages case.blkno case.position case.neighbors, none) := by
  obtain ⟨start, started⟩ := case.started
  rw [case.update_eq none started, Option.bind_none, locateAdj_plain started]
  rfl

/-- **An update with a cache** is right where the cached location is absent or no later in the chain
than the tuple, and only there; an update without a cache rewrites the tuple. -/
theorem updateAdjTuple_right_iff (case : AdjCase) :
    case.update none =
        .ok (rewriteAt case.pages case.blkno case.position case.neighbors, none) ∧
      ((∃ result, case.update (some case.cache) = .ok result ∧ case.IsRight result) ↔
        case.HintKept) := by
  refine ⟨case.update_plain, ?_⟩
  obtain ⟨start, started⟩ := case.started
  rw [case.update_eq (some case.cache) started, Option.bind_some]
  rcases locateAdj_eq started with ⟨kept, found⟩ | ⟨lost, error, failed⟩
  · rw [found]
    exact iff_of_true ⟨_, rfl, case.update_plain, rfl, rfl⟩ kept
  · rw [failed]
    refine iff_of_false ?_ lost
    rintro ⟨result, made, -⟩
    cases made

end AdjCase

/-! ### A tuple before its cached location -/

def twoPages : List AdjPage :=
  [⟨some .quantAdj, [some ⟨adjTupleType, 0, 1, 0, some [1, 0]⟩], some 1⟩,
    ⟨some .quantAdj, [some ⟨adjTupleType, 0, 1, 1, some [0, 0]⟩], none⟩]

/-- An update of the first tuple, whose cached location is the second one's. -/
def staleCase : AdjCase where
  pages := twoPages
  info := ⟨2, 2, some 0⟩
  cache := ⟨fun _ => some (1, 0), fun _ => [1]⟩
  nodeId := 0
  level := 0
  neighbors := [1]
  node := by decide
  stored := by decide
  few := by decide
  blocks := [0, 1]
  chain := ⟨rfl, _, rfl, rfl, rfl, _, rfl, rfl, rfl⟩
  blkno := 0
  position := 0
  page := ⟨some .quantAdj, [some ⟨adjTupleType, 0, 1, 0, some [1, 0]⟩], some 1⟩
  tuple := ⟨adjTupleType, 0, 1, 0, some [1, 0]⟩
  words := [1, 0]
  inside := by decide
  there := rfl
  item := rfl
  isFor := by decide
  body := rfl
  room := by decide
  single := by
    intro other known page' there place tuple' item isFor
    simp only [List.mem_cons, List.not_mem_nil, or_false] at known
    rcases known with rfl | rfl <;> obtain rfl := Option.some.inj there <;>
      rcases place with _ | place
    · exact ⟨rfl, rfl⟩
    · cases item
    · obtain rfl := Option.some.inj (Option.some.inj item)
      exact absurd isFor (by decide)
    · cases item
  hinted := by
    intro block place named
    obtain ⟨rfl, rfl⟩ := Prod.mk.inj (Option.some.inj named)
    exact .inl (by decide)

/-- The update reports the tuple missing. -/
theorem tuple_before_hint : staleCase.update (some staleCase.cache) = .error .missingTuple ∧
    ¬∀ case : AdjCase, ∃ result, case.update (some case.cache) = .ok result ∧
      case.IsRight result := by
  have failed : staleCase.update (some staleCase.cache) = .error .missingTuple := by
    rfl
  refine ⟨failed, fun promised => ?_⟩
  obtain ⟨result, made, -⟩ := promised staleCase
  rw [failed] at made
  cases made

end TurboHybrid.Graph.AdjUpdate
