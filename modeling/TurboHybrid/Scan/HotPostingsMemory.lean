/-
**The cache of hot postings as it lies in memory.**

An entry is found by its key in a hash table and by its links in the list of recent use. Both are
changed together: when an entry is used, stored, dropped for another one, or an allocation fails on
the way.

* `Mirrors`: table and list have the same entries, whose sizes are the recorded bytes;
* `Mirrors.lookup`, `Mirrors.store`: what the operations do is what they do to the list of
  entries of the cache, and no freed entry is touched;
* `runCache_represents`: every run of lookups, stores and invalidations.
-/
import TurboHybrid.Scan.HotPostings
import TurboHybrid.Library.LinkedList
import Mathlib.Data.List.Induction
import Mathlib.Algebra.Field.Rat
import Mathlib.Algebra.Order.Ring.Rat

set_option linter.unusedSectionVars false

namespace TurboHybrid.Scan.Loading

open TurboHybrid.Index TurboHybrid.Library

universe u

variable {R : Type u} [Field R] [LinearOrder R] [IsStrictOrderedRing R]

/-! ### The operations -/

/-- The list of recent use, the table with the address of each key's entry once it was made, and the
counters. -/
structure StoredCache (R : Type u) where
  list : LinkedList (HotPostingsEntry R)
  table : Option (HotPostingsKey → Option Nat)
  bytes : Nat
  evictions : Nat
  clock : Nat

/-- What the allocations of a store do: whether the table can be made, where the entry is put, and
whether there is room for its postings and its place in the table. -/
structure Allocations (Body : Type u) where
  tableFails : Bool
  place : Memory Body → Option Nat
  fresh : ∀ memory address, place memory = some address → memory address = none
  postingsFail : Bool

namespace StoredCache

/-- The cache of an index that was read for the first time. -/
def empty : StoredCache R := ⟨⟨fun _ => none, none, none⟩, none, 0, 0, 0⟩

variable (cache : StoredCache R)

def find (key : HotPostingsKey) : Option Nat := cache.table.bind fun table => table key

def lruTouch (address : Nat) : Option (StoredCache R) :=
  (cache.list.memory.modify address fun cell =>
    { cell with body := { cell.body with lastUsed := cache.clock + 1 } }).bind fun memory =>
  let list : LinkedList (HotPostingsEntry R) := { cache.list with memory }
  if list.head = some address then some { cache with list, clock := cache.clock + 1 }
  else
    (list.remove address).bind fun list =>
    (list.pushHead address).map fun list => { cache with list, clock := cache.clock + 1 }

/-- The entry under a key, which becomes the most recent one. -/
def lookup (policy : HotPostingsPolicy) (term : TermRef) (address : Address) :
    Option (StoredCache R × Option (HotPostingsEntry R)) :=
  if policy.limitBytes = 0 ∨ term.baseDf < policy.minDf then some (cache, none)
  else
    match cache.find ⟨term.termId, address⟩ with
    | none => some (cache, none)
    | some place =>
      (cache.list.memory place).bind fun cell =>
      (cache.lruTouch place).map fun cache => (cache, some cell.body)

/-- Take an entry out of the table and the list, and free it. -/
def freeEntry (address : Nat) (countEviction : Bool) : Option (StoredCache R) :=
  (cache.list.memory address).bind fun cell =>
  (cache.list.remove address).map fun list =>
    { list := { list with memory := Function.update list.memory address none }
      table := cache.table.map fun table => Function.update table cell.body.key none
      bytes := cache.bytes - min cache.bytes cell.body.bytes
      evictions := if countEviction then cache.evictions + 1 else cache.evictions
      clock := cache.clock }

def evictOne : Option (StoredCache R) :=
  match cache.list.tail with
  | none => some cache
  | some address => cache.freeEntry address true

/-- The loop that makes room. Every entry it drops has a size, so that the bytes are rounds enough. -/
def evict (limitBytes needed : Nat) : Nat → StoredCache R → Option (StoredCache R)
  | rounds, cache =>
    if limitBytes < cache.bytes + needed ∧ cache.list.tail ≠ none then
      match rounds with
      | 0 => none
      | rounds + 1 => cache.evictOne.bind (evict limitBytes needed rounds)
    else some cache

def store (allocations : Allocations (HotPostingsEntry R)) (policy : HotPostingsPolicy)
    (term : TermRef) (address : Address) (tuple : StoredTuple R) (loaded : Chunk R) :
    Option (StoredCache R) :=
  let key : HotPostingsKey := ⟨term.termId, address⟩
  let needed := entryBytes loaded.postings.length
  if cacheEligible policy term tuple = false ∨ loaded.postings = [] ∨ policy.limitBytes < needed then
    some cache
  else if cache.table = none ∧ allocations.tableFails = true then some cache
  else
    let made : StoredCache R := { cache with table := some (cache.table.getD fun _ => none) }
    (match made.find key with
      | some place => made.freeEntry place false
      | none => some made).bind fun freed =>
    (evict policy.limitBytes needed freed.bytes freed).bind fun evicted =>
    if policy.limitBytes < evicted.bytes + needed then some evicted
    else
      match allocations.place evicted.list.memory with
      | none => some evicted
      | some place =>
        let entry : HotPostingsEntry R := ⟨key, loaded, tuple.next, needed, evicted.clock + 1⟩
        let list : LinkedList (HotPostingsEntry R) :=
          { evicted.list with
            memory := Function.update evicted.list.memory place (some ⟨none, none, entry⟩) }
        if allocations.postingsFail then some { evicted with list, clock := evicted.clock + 1 }
        else
          (list.pushHead place).map fun list =>
            { evicted with
              list
              table := evicted.table.map fun table => Function.update table key (some place)
              bytes := evicted.bytes + needed
              clock := evicted.clock + 1 }

end StoredCache

/-! ### What the memory represents -/

/-- A node of the list: where an entry is, and the entry. -/
abbrev EntryNode (R : Type u) := Nat × HotPostingsEntry R

/-- **Table and list have the same entries**, and the recorded bytes are their sizes. -/
structure Mirrors (cache : StoredCache R) (nodes : List (EntryNode R)) : Prop where
  linked : cache.list.Linked nodes
  table : ∀ key place, cache.find key = some place ↔ ∃ entry, (place, entry) ∈ nodes ∧
    entry.key = key
  bytes : cache.bytes = (nodes.map fun node => node.2.bytes).sum
  positive : ∀ node ∈ nodes, 0 < node.2.bytes

def StoredCache.abstract (cache : StoredCache R) (nodes : List (EntryNode R)) :
    HotPostingsCache R :=
  ⟨nodes.map Prod.snd, cache.bytes, cache.evictions, cache.clock⟩

theorem table_update (table : Option (HotPostingsKey → Option Nat)) (changed key : HotPostingsKey)
    {place : Option Nat} (made : table.isSome = true ∨ place = none) :
    ((table.map fun table => Function.update table changed place).bind fun table => table key) =
      if key = changed then place else table.bind fun table => table key := by
  cases table with
  | none =>
    rcases made with made | rfl
    · cases made
    · split_ifs <;> rfl
  | some table => simp only [Option.map_some, Option.bind_some, Function.update_apply]

theorem represents_empty : Mirrors (StoredCache.empty : StoredCache R) [] :=
  ⟨LinkedList.linked_nil _, fun key place => by simp [StoredCache.empty, StoredCache.find], rfl,
    fun _ member => absurd member List.not_mem_nil⟩

namespace Mirrors

variable {cache : StoredCache R} {nodes before after : List (EntryNode R)} {node : EntryNode R}

theorem keys (represents : Mirrors cache nodes) {one other : EntryNode R} (member : one ∈ nodes)
    (member' : other ∈ nodes) (same : one.2.key = other.2.key) : one = other := by
  have first := (represents.table one.2.key one.1).mpr ⟨one.2, member, rfl⟩
  have second := (represents.table one.2.key other.1).mpr ⟨other.2, member', same.symm⟩
  rw [first] at second
  exact List.inj_on_of_nodup_map represents.linked.distinct member member' (Option.some.inj second)

theorem others (represents : Mirrors cache (before ++ node :: after)) :
    ((before ++ node :: after).map Prod.snd).filter (fun other => other.key ≠ node.2.key) =
      (before ++ after).map Prod.snd := by
  have kept {other : EntryNode R} (member : other ∈ before ++ after) :
      other.2.key ≠ node.2.key := by
    intro same
    have inside : other ∈ before ++ node :: after := by
      rcases List.mem_append.mp member with front | back
      · exact List.mem_append_left _ front
      · exact List.mem_append_right _ (List.mem_cons_of_mem _ back)
    have equal := represents.keys inside (List.mem_append_right _ List.mem_cons_self) same
    have distinct := represents.linked.distinct
    rw [List.map_append, List.map_cons] at distinct
    have gone := (List.nodup_cons.mp (List.nodup_middle.mp distinct)).1
    rw [← List.map_append] at gone
    exact gone (equal ▸ List.mem_map_of_mem member)
  rw [List.map_append, List.map_cons, List.filter_append, List.filter_cons_of_neg (by simp),
    ← List.filter_append, ← List.map_append]
  refine List.filter_eq_self.mpr fun entry member => ?_
  obtain ⟨other, inside, rfl⟩ := List.mem_map.mp member
  exact decide_eq_true (kept inside)

theorem find_node (represents : Mirrors cache nodes) (key : HotPostingsKey) :
    (cache.abstract nodes).find key =
      (cache.find key).bind fun place => (cache.list.memory place).map Cell.body := by
  show (nodes.map Prod.snd).find? _ = _
  cases found : cache.find key with
  | none =>
    refine List.find?_eq_none.mpr fun entry member => ?_
    obtain ⟨node, inside, rfl⟩ := List.mem_map.mp member
    simp only [decide_eq_true_eq]
    intro same
    have there := (represents.table key node.1).mpr ⟨node.2, inside, same⟩
    rw [found] at there
    cases there
  | some place =>
    obtain ⟨entry, member, same⟩ := (represents.table key place).mp found
    obtain ⟨prev, next, cell⟩ := represents.linked.cell_mem member
    rw [Option.bind_some, cell, Option.map_some]
    cases hit : (nodes.map Prod.snd).find? fun entry => decide (entry.key = key) with
    | none =>
      have missed := List.find?_eq_none.mp hit entry (List.mem_map_of_mem member)
      simp [same] at missed
    | some other =>
      obtain ⟨node, inside, rfl⟩ := List.mem_map.mp (List.mem_of_find?_eq_some hit)
      have key' : node.2.key = key := by simpa using List.find?_some hit
      exact congrArg (fun node : EntryNode R => some node.2)
        (represents.keys inside member (key'.trans same.symm))

/-! ### One operation -/

theorem split_of_find (represents : Mirrors cache nodes) {key : HotPostingsKey} {place : Nat}
    (found : cache.find key = some place) :
    ∃ before entry after, nodes = before ++ (place, entry) :: after ∧ entry.key = key := by
  obtain ⟨entry, member, same⟩ := (represents.table key place).mp found
  obtain ⟨before, after, split⟩ := List.append_of_mem member
  exact ⟨before, entry, after, split, same⟩

/-- **An entry that is used** moves to the head. -/
theorem lruTouch (represents : Mirrors cache (before ++ node :: after)) :
    ∃ touched nodes', cache.lruTouch node.1 = some touched ∧ Mirrors touched nodes' ∧
      touched.abstract nodes' = (cache.abstract (before ++ node :: after)).lruTouch node.2 := by
  let used : HotPostingsEntry R := { node.2 with lastUsed := cache.clock + 1 }
  obtain ⟨memory, written, linked, -⟩ := represents.linked.write fun entry =>
    { entry with lastUsed := cache.clock + 1 }
  have moved : (cache.abstract (before ++ node :: after)).lruTouch node.2 =
      ⟨((node.1, used) :: (before ++ after)).map Prod.snd, cache.bytes, cache.evictions,
        cache.clock + 1⟩ := by
    unfold HotPostingsCache.lruTouch StoredCache.abstract
    rw [represents.others]
    rfl
  have members (other : EntryNode R) : other ∈ (node.1, used) :: (before ++ after) ↔
      other = (node.1, used) ∨ other ∈ before ++ after := List.mem_cons
  have table (key : HotPostingsKey) (place : Nat) : cache.find key = some place ↔
      ∃ entry, (place, entry) ∈ (node.1, used) :: (before ++ after) ∧ entry.key = key := by
    rw [represents.table]
    constructor
    · rintro ⟨entry, member, same⟩
      rw [List.mem_append, List.mem_cons] at member
      rcases member with front | rfl | back
      · exact ⟨entry, List.mem_cons_of_mem _ (List.mem_append_left _ front), same⟩
      · exact ⟨used, List.mem_cons_self, same⟩
      · exact ⟨entry, List.mem_cons_of_mem _ (List.mem_append_right _ back), same⟩
    · rintro ⟨entry, member, same⟩
      rcases List.mem_cons.mp member with here | member
      · cases here
        exact ⟨node.2, List.mem_append_right _ List.mem_cons_self, same⟩
      · rcases List.mem_append.mp member with front | back
        · exact ⟨entry, List.mem_append_left _ front, same⟩
        · exact ⟨entry, List.mem_append_right _ (List.mem_cons_of_mem _ back), same⟩
  have bytes : cache.bytes =
      (((node.1, used) :: (before ++ after)).map fun node => node.2.bytes).sum := by
    rw [represents.bytes]
    simp only [List.map_append, List.map_cons, List.sum_append, List.sum_cons]
    exact Nat.add_left_comm _ _ _
  have positive : ∀ other ∈ (node.1, used) :: (before ++ after), 0 < other.2.bytes := by
    intro other member
    rcases (members other).mp member with rfl | member
    · exact represents.positive node (List.mem_append_right _ List.mem_cons_self)
    · refine represents.positive other ?_
      rcases List.mem_append.mp member with front | back
      · exact List.mem_append_left _ front
      · exact List.mem_append_right _ (List.mem_cons_of_mem _ back)
  unfold StoredCache.lruTouch
  rw [written, Option.bind_some]
  dsimp only
  by_cases head : cache.list.head = some node.1
  · rw [if_pos head]
    -- the head stays where it is
    have none : before = [] := by
      cases before with
      | nil => rfl
      | cons one rest =>
        have first := represents.linked.head
        rw [head] at first
        have same : node.1 = one.1 := Option.some.inj first
        have distinct := represents.linked.distinct
        rw [List.cons_append, List.map_cons, List.nodup_cons] at distinct
        exact absurd (List.mem_map_of_mem (List.mem_append_right _ List.mem_cons_self))
          (same ▸ distinct.1)
    subst none
    exact ⟨_, _, rfl, ⟨linked, table, bytes, positive⟩, moved.symm⟩
  · rw [if_neg head]
    obtain ⟨closed, removed, closedLinked, cell, -⟩ := linked.remove
    have outside : node.1 ∉ (before ++ after).map Prod.fst := by
      have distinct := represents.linked.distinct
      rw [List.map_append, List.map_cons] at distinct
      rw [List.map_append]
      exact (List.nodup_cons.mp (List.nodup_middle.mp distinct)).1
    obtain ⟨pushed, push, pushedLinked, -⟩ := closedLinked.pushHead cell outside
    rw [removed, Option.bind_some, push]
    exact ⟨_, _, rfl, ⟨pushedLinked, table, bytes, positive⟩, moved.symm⟩

/-- **A dropped entry** leaves the table and the list. -/
theorem freeEntry (represents : Mirrors cache (before ++ node :: after)) (countEviction : Bool) :
    ∃ freed, cache.freeEntry node.1 countEviction = some freed ∧
      Mirrors freed (before ++ after) ∧ freed.bytes + node.2.bytes = cache.bytes ∧
      freed.table.isSome = cache.table.isSome ∧
      freed.abstract (before ++ after) =
        { (cache.abstract (before ++ node :: after)).freeEntry node.2 with
          evictions := if countEviction then cache.evictions + 1 else cache.evictions } := by
  obtain ⟨closed, removed, linked, -, -⟩ := represents.linked.remove
  have here := represents.linked.cell before node after rfl
  have total := represents.bytes
  simp only [List.map_append, List.map_cons, List.sum_append, List.sum_cons] at total
  have inside {other : EntryNode R} (member : other ∈ before ++ after) :
      other ∈ before ++ node :: after := by
    rcases List.mem_append.mp member with front | back
    · exact List.mem_append_left _ front
    · exact List.mem_append_right _ (List.mem_cons_of_mem _ back)
  have outside : node.1 ∉ (before ++ after).map Prod.fst := by
    have distinct := represents.linked.distinct
    rw [List.map_append, List.map_cons] at distinct
    rw [List.map_append]
    exact (List.nodup_cons.mp (List.nodup_middle.mp distinct)).1
  unfold StoredCache.freeEntry
  rw [here, removed, Option.bind_some, Option.map_some]
  refine ⟨_, rfl, ⟨?_, fun key place => ?_, ?_, fun other member =>
    represents.positive other (inside member)⟩, ?_, Option.isSome_map, ?_⟩
  · refine linked.congr fun address member => Function.update_of_ne ?_ _ _
    rintro rfl
    exact outside member
  · refine (iff_of_eq (congrArg (· = some place)
      (table_update cache.table node.2.key key (Or.inr rfl)))).trans ?_
    by_cases same : key = node.2.key
    · rw [if_pos same]
      refine iff_of_false (by simp) ?_
      rintro ⟨entry, member, key'⟩
      have equal := represents.keys (inside member) (List.mem_append_right _ List.mem_cons_self)
        (key'.trans same)
      exact outside (equal ▸ List.mem_map_of_mem member)
    · rw [if_neg same]
      refine (represents.table key place).trans ?_
      refine exists_congr fun entry => and_congr_left fun key' => ⟨fun member => ?_, inside⟩
      rw [List.mem_append, List.mem_cons] at member
      rcases member with front | here | back
      · exact List.mem_append_left _ front
      · exact absurd (key'.symm.trans (congrArg (fun node => node.2.key) here)) same
      · exact List.mem_append_right _ back
  · simp only [List.map_append, List.sum_append]
    show cache.bytes - min cache.bytes node.2.bytes = _
    omega
  · show cache.bytes - min cache.bytes node.2.bytes + node.2.bytes = cache.bytes
    omega
  · unfold HotPostingsCache.freeEntry StoredCache.abstract
    rw [represents.others]

/-- **The loop that makes room** drops entries from the tail on until there is room or none. -/
theorem evict (represents : Mirrors cache nodes) (limitBytes needed : Nat) {rounds : Nat}
    (enough : cache.bytes ≤ rounds) :
    ∃ evicted nodes', StoredCache.evict limitBytes needed rounds cache = some evicted ∧
      Mirrors evicted nodes' ∧ nodes' ⊆ nodes ∧ evicted.table.isSome = cache.table.isSome ∧
      evicted.abstract nodes' = (cache.abstract nodes).evict limitBytes needed := by
  induction nodes using List.reverseRecOn generalizing cache rounds with
  | nil =>
    have empty : cache.list.tail = none := represents.linked.tail
    refine ⟨cache, [], ?_, represents, List.Subset.refl _, rfl, rfl⟩
    unfold StoredCache.evict
    rw [if_neg fun more => more.2 empty]
  | append_singleton init node ih =>
    have tail : cache.list.tail = some node.1 := by
      rw [represents.linked.tail]
      simp [LinkedList.last]
    by_cases full : limitBytes < cache.bytes + needed
    · obtain ⟨freed, freeing, kept, bytes, table, abstracted⟩ := represents.freeEntry true
      rw [List.append_nil] at kept abstracted
      have some' := represents.positive node (List.mem_append_right _ List.mem_cons_self)
      cases rounds with
      | zero => omega
      | succ rounds =>
        obtain ⟨evicted, nodes', evicting, kept', inside, made, abstracted'⟩ :=
          ih kept (show freed.bytes ≤ rounds by omega)
        refine ⟨evicted, nodes', ?_, kept', List.subset_append_of_subset_left _ inside,
          made.trans table, ?_⟩
        · unfold StoredCache.evict
          rw [if_pos ⟨full, by rw [tail]; exact Option.some_ne_none _⟩]
          unfold StoredCache.evictOne
          rw [tail]
          dsimp only
          rw [freeing, Option.bind_some, evicting]
        · rw [abstracted', abstracted]
          unfold HotPostingsCache.evict StoredCache.abstract HotPostingsCache.freeEntry
          dsimp only
          have others := represents.others
          rw [List.append_nil] at others
          rw [others, List.map_append, List.map_singleton, List.reverse_append,
            List.reverse_singleton, List.singleton_append]
          conv_rhs => unfold HotPostingsCache.evictEntries
          rw [if_pos full]
          rfl
    · refine ⟨cache, init ++ [node], ?_, represents, List.Subset.refl _, rfl, ?_⟩
      · unfold StoredCache.evict
        rw [if_neg fun more => full more.1]
      · unfold HotPostingsCache.evict StoredCache.abstract
        dsimp only
        rw [List.map_append, List.map_singleton, List.reverse_append, List.reverse_singleton,
          List.singleton_append]
        unfold HotPostingsCache.evictEntries
        rw [if_neg full]
        simp

/-- **A lookup** finds what the list of entries has, and moves it to the head. -/
theorem lookup (represents : Mirrors cache nodes) (policy : HotPostingsPolicy) (term : TermRef)
    (address : Address) :
    ∃ later nodes', cache.lookup policy term address =
        some (later, cacheLookup policy term address (cache.abstract nodes)) ∧
      Mirrors later nodes' ∧
      later.abstract nodes' =
        ((cacheLookup policy term address (cache.abstract nodes)).map
          (cache.abstract nodes).lruTouch).getD (cache.abstract nodes) := by
  unfold StoredCache.lookup cacheLookup
  by_cases off : policy.limitBytes = 0 ∨ term.baseDf < policy.minDf
  · rw [if_pos off, if_pos off]
    exact ⟨cache, nodes, rfl, represents, rfl⟩
  · rw [if_neg off, if_neg off, represents.find_node]
    cases found : cache.find ⟨term.termId, address⟩ with
    | none => exact ⟨cache, nodes, rfl, represents, rfl⟩
    | some place =>
      obtain ⟨before, entry, after, rfl, -⟩ := represents.split_of_find found
      obtain ⟨touched, nodes', touch, kept, moved⟩ := represents.lruTouch
      have cell := represents.linked.cell before (place, entry) after rfl
      dsimp only
      rw [Option.bind_some, cell, Option.bind_some, touch]
      exact ⟨touched, nodes', rfl, kept, moved⟩

theorem push (represents : Mirrors cache nodes) (made : cache.table.isSome = true)
    (entry : HotPostingsEntry R) (positive : 0 < entry.bytes) {place : Nat}
    (fresh : cache.list.memory place = none) (unknown : cache.find entry.key = none)
    (clock : Nat) :
    ∃ list, LinkedList.pushHead { cache.list with
        memory := Function.update cache.list.memory place (some ⟨none, none, entry⟩) } place =
        some list ∧
      Mirrors { cache with
        list
        table := cache.table.map fun table => Function.update table entry.key (some place)
        bytes := cache.bytes + entry.bytes
        clock } ((place, entry) :: nodes) := by
  have outside : place ∉ nodes.map Prod.fst := by
    intro inside
    obtain ⟨node, member, rfl⟩ := List.mem_map.mp inside
    obtain ⟨prev, next, cell⟩ := represents.linked.cell_mem member
    rw [fresh] at cell
    cases cell
  have linked : LinkedList.Linked { cache.list with
      memory := Function.update cache.list.memory place (some ⟨none, none, entry⟩) } nodes := by
    refine represents.linked.congr fun address member => Function.update_of_ne ?_ _ _
    rintro rfl
    exact outside member
  obtain ⟨list, pushed, linked', -⟩ := linked.pushHead (Function.update_self _ _ _) outside
  refine ⟨list, pushed, linked', fun key other => ?_, ?_, fun node member => ?_⟩
  · refine (iff_of_eq (congrArg (· = some other)
      (table_update cache.table entry.key key (Or.inl made)))).trans ?_
    by_cases same : key = entry.key
    · rw [if_pos same]
      constructor
      · intro here
        cases here
        exact ⟨entry, List.mem_cons_self, same.symm⟩
      · rintro ⟨known, member, key'⟩
        rcases List.mem_cons.mp member with here | member
        · cases here
          rfl
        · have there := (represents.table entry.key other).mpr ⟨known, member, key'.trans same⟩
          rw [unknown] at there
          cases there
    · rw [if_neg same]
      refine (represents.table key other).trans ?_
      refine exists_congr fun known => and_congr_left fun key' => ?_
      refine ⟨List.mem_cons_of_mem _, fun member => ?_⟩
      rcases List.mem_cons.mp member with here | member
      · exact absurd (key'.symm.trans (congrArg (fun node : EntryNode R => node.2.key) here)) same
      · exact member
  · show cache.bytes + entry.bytes = _
    rw [represents.bytes, List.map_cons, List.sum_cons]
    exact Nat.add_comm _ _
  · rcases List.mem_cons.mp member with rfl | member
    · exact positive
    · exact represents.positive node member

theorem made (represents : Mirrors cache nodes) :
    Mirrors { cache with table := some (cache.table.getD fun _ => none) } nodes := by
  refine ⟨represents.linked, fun key place => ?_, represents.bytes, represents.positive⟩
  have same : StoredCache.find
      { cache with table := some (cache.table.getD fun _ => none) } key = cache.find key := by
    unfold StoredCache.find
    cases cache.table <;> rfl
  rw [same, represents.table]

theorem replace (represents : Mirrors cache nodes) (key : HotPostingsKey) :
    ∃ freed nodes',
      (match cache.find key with
        | some place => cache.freeEntry place false
        | none => some cache) = some freed ∧
      Mirrors freed nodes' ∧ nodes' ⊆ nodes ∧ freed.table.isSome = cache.table.isSome ∧
      (∀ node ∈ nodes', node.2.key ≠ key) ∧
      freed.abstract nodes' =
        match (cache.abstract nodes).find key with
        | some entry => (cache.abstract nodes).freeEntry entry
        | none => cache.abstract nodes := by
  rw [represents.find_node]
  cases found : cache.find key with
  | none =>
    refine ⟨cache, nodes, rfl, represents, List.Subset.refl _, rfl, fun node member same => ?_, rfl⟩
    have there := (represents.table key node.1).mpr ⟨node.2, member, same⟩
    rw [found] at there
    cases there
  | some place =>
    obtain ⟨before, entry, after, rfl, same⟩ := represents.split_of_find found
    obtain ⟨freed, freeing, kept, -, table, abstracted⟩ := represents.freeEntry false
    have cell := represents.linked.cell before (place, entry) after rfl
    have inside : before ++ after ⊆ before ++ (place, entry) :: after :=
      List.append_subset.mpr ⟨List.subset_append_left _ _,
        fun node member => List.mem_append_right _ (List.mem_cons_of_mem _ member)⟩
    refine ⟨freed, before ++ after, freeing, kept, inside, table, fun node member key' => ?_, ?_⟩
    · have equal := represents.keys (inside member) (List.mem_append_right _ List.mem_cons_self)
        (key'.trans same.symm)
      have distinct := represents.linked.distinct
      rw [List.map_append, List.map_cons] at distinct
      have gone := (List.nodup_cons.mp (List.nodup_middle.mp distinct)).1
      rw [← List.map_append] at gone
      exact gone (equal ▸ List.mem_map_of_mem member)
    · rw [abstracted, Option.bind_some, cell]
      rfl

/-- **A store** keeps table and list together, and the bytes below the limit where the entry is
kept. Where no allocation fails it does what it does to the list of entries. -/
theorem store (represents : Mirrors cache nodes)
    (allocations : Allocations (HotPostingsEntry R)) (policy : HotPostingsPolicy) (term : TermRef)
    (address : Address) (tuple : StoredTuple R) (loaded : Chunk R) :
    ∃ later nodes', cache.store allocations policy term address tuple loaded = some later ∧
      Mirrors later nodes' ∧ (later.bytes ≤ policy.limitBytes ∨ nodes' ⊆ nodes) ∧
      (allocations.tableFails = false → (∀ memory, allocations.place memory ≠ none) →
        allocations.postingsFail = false →
        later.abstract nodes' =
          cacheStore policy term address tuple loaded (cache.abstract nodes)) := by
  unfold StoredCache.store
  extract_lets key needed made
  by_cases refused : cacheEligible policy term tuple = false ∨ loaded.postings = [] ∨
      policy.limitBytes < needed
  · rw [if_pos refused]
    exact ⟨cache, nodes, rfl, represents, Or.inr (List.Subset.refl _),
      fun _ _ _ => (if_pos refused).symm⟩
  · rw [if_neg refused]
    by_cases noTable : cache.table = none ∧ allocations.tableFails = true
    · rw [if_pos noTable]
      refine ⟨cache, nodes, rfl, represents, Or.inr (List.Subset.refl _), fun table _ _ => ?_⟩
      rw [noTable.2] at table
      cases table
    · rw [if_neg noTable]
      obtain ⟨freed, nodes', freeing, kept, inside, table, absent, abstracted⟩ :=
        represents.made.replace key
      have freeing : (match made.find key with
        | some place => made.freeEntry place false
        | none => some made) = some freed := freeing
      obtain ⟨evicted, nodes'', evicting, kept', inside', table', abstracted'⟩ :=
        kept.evict policy.limitBytes needed le_rfl
      have known : evicted.table.isSome = true := table'.trans table
      have listed : cacheStore policy term address tuple loaded (cache.abstract nodes) =
          if policy.limitBytes < (evicted.abstract nodes'').bytes + needed then
            evicted.abstract nodes''
          else
            { evicted.abstract nodes'' with
              entries := ⟨key, loaded, tuple.next, needed, evicted.clock + 1⟩ ::
                nodes''.map Prod.snd
              bytes := evicted.bytes + needed
              clock := evicted.clock + 1 } := by
        have room : evicted.abstract nodes'' =
            (match (cache.abstract nodes).find key with
              | some entry => (cache.abstract nodes).freeEntry entry
              | none => cache.abstract nodes).evict policy.limitBytes needed := by
          rw [abstracted', abstracted]
          rfl
        have entries : nodes''.map Prod.snd = (evicted.abstract nodes'').entries := rfl
        have bytes : evicted.bytes = (evicted.abstract nodes'').bytes := rfl
        have clock : evicted.clock = (evicted.abstract nodes'').clock := rfl
        rw [entries, bytes, clock, room]
        exact if_neg refused
      rw [freeing, Option.bind_some, evicting, Option.bind_some, listed]
      have within : nodes'' ⊆ nodes := List.Subset.trans inside' inside
      by_cases full : policy.limitBytes < evicted.bytes + needed
      · rw [if_pos full, if_pos (show _ < (evicted.abstract nodes'').bytes + needed from full)]
        exact ⟨evicted, nodes'', rfl, kept', Or.inr within, fun _ _ _ => rfl⟩
      · rw [if_neg full, if_neg (show ¬_ < (evicted.abstract nodes'').bytes + needed from full)]
        cases placed : allocations.place evicted.list.memory with
        | none =>
          exact ⟨evicted, nodes'', rfl, kept', Or.inr within, fun _ room _ => absurd placed (room _)⟩
        | some place =>
          have fresh := allocations.fresh _ _ placed
          have unknown : evicted.find key = none := by
            refine Option.eq_none_iff_forall_ne_some.mpr fun other found => ?_
            obtain ⟨entry, member, same⟩ := (kept'.table key other).mp found
            exact absent _ (inside' member) same
          obtain ⟨list, pushed, final⟩ := kept'.push known
            ⟨key, loaded, tuple.next, needed, evicted.clock + 1⟩
            (show 0 < needed by unfold needed entryBytes; omega) fresh unknown (evicted.clock + 1)
          dsimp only
          by_cases failing : allocations.postingsFail = true
          · rw [if_pos failing]
            refine ⟨_, nodes'', rfl, ⟨kept'.linked.congr fun address member => ?_, kept'.table,
              kept'.bytes, kept'.positive⟩, Or.inr within, fun _ _ room => ?_⟩
            · refine Function.update_of_ne ?_ _ _
              rintro rfl
              obtain ⟨node, member, same⟩ := List.mem_map.mp member
              obtain ⟨prev, next, cell⟩ := kept'.linked.cell_mem member
              rw [same, fresh] at cell
              cases cell
            · rw [failing] at room
              cases room
          · rw [if_neg failing, pushed]
            refine ⟨_, _, rfl, final, Or.inl (not_lt.mp full), fun _ _ _ => ?_⟩
            rfl

end Mirrors

/-! ### Runs -/

/-- What happens to the cache of an index. An invalidation frees it whole; the next use makes a new
one. -/
inductive CacheAction (R : Type u) where
  | lookup (policy : HotPostingsPolicy) (term : TermRef) (address : Address)
  | store (allocations : Allocations (HotPostingsEntry R)) (policy : HotPostingsPolicy)
      (term : TermRef) (address : Address) (tuple : StoredTuple R) (loaded : Chunk R)
  | invalidate

def CacheAction.run (cache : StoredCache R) : CacheAction R → Option (StoredCache R)
  | .lookup policy term address => (cache.lookup policy term address).map Prod.fst
  | .store allocations policy term address tuple loaded =>
    cache.store allocations policy term address tuple loaded
  | .invalidate => some StoredCache.empty

def runCache (cache : StoredCache R) (actions : List (CacheAction R)) : Option (StoredCache R) :=
  actions.foldlM CacheAction.run cache

theorem CacheAction.run_represents {cache : StoredCache R} {nodes : List (EntryNode R)}
    (represents : Mirrors cache nodes) (action : CacheAction R) :
    ∃ later nodes', action.run cache = some later ∧ Mirrors later nodes' := by
  cases action with
  | lookup policy term address =>
    obtain ⟨later, nodes', found, kept, -⟩ := represents.lookup policy term address
    exact ⟨later, nodes', by rw [CacheAction.run, found]; rfl, kept⟩
  | store allocations policy term address tuple loaded =>
    obtain ⟨later, nodes', stored, kept, -⟩ :=
      represents.store allocations policy term address tuple loaded
    exact ⟨later, nodes', stored, kept⟩
  | invalidate => exact ⟨_, _, rfl, represents_empty⟩

/-- **After any run** of lookups, stores and invalidations no freed entry was touched, the table and
the list have the same entries, the bytes are the sum of their sizes, and the next store leaves the
bytes below its limit or keeps no new entry. -/
theorem runCache_represents (actions : List (CacheAction R)) :
    ∃ cache nodes, runCache StoredCache.empty actions = some cache ∧ Mirrors cache nodes ∧
      ∀ (allocations : Allocations (HotPostingsEntry R)) (policy : HotPostingsPolicy)
        (term : TermRef) (address : Address) (tuple : StoredTuple R) (loaded : Chunk R),
        ∃ later nodes', cache.store allocations policy term address tuple loaded = some later ∧
          Mirrors later nodes' ∧ (later.bytes ≤ policy.limitBytes ∨ nodes' ⊆ nodes) := by
  have run (cache : StoredCache R) (nodes : List (EntryNode R)) (represents : Mirrors cache nodes) :
      ∃ later nodes', runCache cache actions = some later ∧ Mirrors later nodes' := by
    induction actions generalizing cache nodes with
    | nil => exact ⟨cache, nodes, rfl, represents⟩
    | cons action rest ih =>
      obtain ⟨middle, between, step, kept⟩ := action.run_represents represents
      obtain ⟨later, nodes', ran, kept'⟩ := ih middle between kept
      refine ⟨later, nodes', ?_, kept'⟩
      unfold runCache
      rw [List.foldlM_cons, step]
      exact ran
  obtain ⟨cache, nodes, ran, represents⟩ := run _ _ represents_empty
  refine ⟨cache, nodes, ran, represents, fun allocations policy term address tuple loaded => ?_⟩
  obtain ⟨later, nodes', stored, kept, bounded, -⟩ :=
    represents.store allocations policy term address tuple loaded
  exact ⟨later, nodes', stored, kept, bounded⟩

def onePlace (Body : Type u) : Allocations Body where
  tableFails := false
  place memory :=
    match memory 0 with
    | none => some 0
    | some _ => none
  fresh memory address placed := by
    cases found : memory 0 with
    | none =>
      rw [found] at placed
      exact Option.some.inj placed ▸ found
    | some cell =>
      rw [found] at placed
      cases placed
  postingsFail := false

/-- A chunk is stored, found, stored again in its own place, and the cache invalidated. -/
theorem runCache_represents_one :
    let policy : HotPostingsPolicy := ⟨100, 1⟩
    let chunk : Chunk ℚ := ⟨[⟨4, 2, 9⟩], 4, 2, 9, 1⟩
    let tuple : StoredTuple ℚ := ⟨7, true, true, chunk, none⟩
    ∃ cache nodes, runCache StoredCache.empty
        [.store (onePlace _) policy ⟨7, 3⟩ (1, 1) tuple chunk, .lookup policy ⟨7, 3⟩ (1, 1),
          .store (onePlace _) policy ⟨7, 3⟩ (1, 1) tuple chunk, .invalidate] = some cache ∧
      Mirrors cache nodes := by
  obtain ⟨cache, nodes, ran, represents, -⟩ := runCache_represents
    [.store (onePlace _) ⟨100, 1⟩ ⟨7, 3⟩ (1, 1)
        ⟨7, true, true, ⟨[⟨4, 2, 9⟩], 4, 2, 9, (1 : ℚ)⟩, none⟩ ⟨[⟨4, 2, 9⟩], 4, 2, 9, 1⟩,
      .lookup ⟨100, 1⟩ ⟨7, 3⟩ (1, 1),
      .store (onePlace _) ⟨100, 1⟩ ⟨7, 3⟩ (1, 1)
        ⟨7, true, true, ⟨[⟨4, 2, 9⟩], 4, 2, 9, (1 : ℚ)⟩, none⟩ ⟨[⟨4, 2, 9⟩], 4, 2, 9, 1⟩,
      .invalidate]
  exact ⟨cache, nodes, ran, represents⟩

end TurboHybrid.Scan.Loading
