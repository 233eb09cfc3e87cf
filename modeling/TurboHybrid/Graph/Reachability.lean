/-
**What a deletion keeps reachable.**

A repair overwrites references from live nodes to dead ones, each by a live node of the dead one's
neighbourhood. It does not ask whether other nodes were reached through the dead one only.

* `Repaired`, `repairAdjacencyForDeadNodes_spec`: what a repair keeps, adds and overwrites;
* `bulkDelete_reach`: paths without a step from a live node to a dead one survive, and so does the
  entry where it is alive;
* `bulkDelete_loses`: a live node reached through a dead one only, and lost.
-/
import Mathlib.Logic.Relation
import TurboHybrid.Graph.Entry

namespace TurboHybrid.Graph

variable {ctx : RepairContext}

/-! ### Writing one reference -/

/-- One list with a reference written: live references stay, the value is new. -/
structure WritesReference (ctx : RepairContext) (old new : List Nat) (value capacity : Nat) :
    Prop where
  kept : ∀ target ∈ old, isReplaceable ctx target = false → target ∈ new
  written : value ∈ new
  fresh : ∀ target ∈ new, target ∈ old ∨ target = value
  fits : old.length ≤ capacity → new.length ≤ capacity

theorem writesReference_set {old : List Nat} {slot value : Nat} (inside : slot < old.length)
    (replaceable : isReplaceable ctx old[slot] = true) (capacity : Nat) :
    WritesReference ctx old (old.set slot value) value capacity where
  kept target member live := by
    obtain ⟨position, below, rfl⟩ := List.mem_iff_getElem.mp member
    refine List.mem_iff_getElem.mpr ⟨position, by simpa using below, ?_⟩
    rw [List.getElem_set_of_ne]
    rintro rfl
    rw [replaceable] at live
    cases live
  written := List.mem_set inside value
  fresh target member := List.mem_or_eq_of_mem_set member
  fits fits := by simpa using fits

theorem writesReference_append {old : List Nat} {value capacity : Nat}
    (room : old.length < capacity) :
    WritesReference ctx old (old ++ [value]) value capacity where
  kept target member _ := List.mem_append_left _ member
  written := List.mem_append_right _ (List.mem_singleton_self _)
  fresh target member := (List.mem_append.mp member).imp_right List.mem_singleton.mp
  fits _ := by simpa using Nat.succ_le_of_lt room

theorem writesReference_slot {old : List Nat} {slot value capacity : Nat}
    (found : vacuumReplaceableSlot ctx old capacity = some slot) :
    WritesReference ctx old (putSlot old slot value) value capacity := by
  unfold vacuumReplaceableSlot at found
  unfold putSlot
  cases search : old.findIdx? (isReplaceable ctx) with
  | none =>
    rw [search] at found
    dsimp only at found
    split_ifs at found with room
    rw [if_pos (Option.some.inj found).symm]
    exact writesReference_append room
  | some position =>
    rw [search] at found
    obtain rfl := Option.some.inj found
    obtain ⟨inside, replaceable, -⟩ := List.findIdx?_eq_some_iff_getElem.mp search
    rw [if_neg inside.ne]
    exact writesReference_set inside replaceable capacity

/-! ### The repair -/

/-- **What a repair can do**: dead nodes and levels without a tuple keep their references, live
references stay, what is new lies between live nodes that refer to each other, and no list outgrows
its capacity. -/
structure Repaired (ctx : RepairContext) (old new : Adjacency) : Prop where
  frame : ∀ nodeId level, isReplaceable ctx nodeId = true ∨ repairsLevel ctx nodeId level = false →
    new nodeId level = old nodeId level
  kept : ∀ nodeId level, ∀ target ∈ old nodeId level, isReplaceable ctx target = false →
    target ∈ new nodeId level
  fresh : ∀ nodeId level, ∀ target ∈ new nodeId level, target ∈ old nodeId level ∨
    isReplaceable ctx nodeId = false ∧ isReplaceable ctx target = false ∧
      nodeId ∈ new target level
  fits : ∀ nodeId level, (old nodeId level).length ≤ levelM ctx.m level →
    (new nodeId level).length ≤ levelM ctx.m level

theorem Repaired.refl (adjacency : Adjacency) : Repaired ctx adjacency adjacency where
  frame _ _ _ := rfl
  kept _ _ _ member _ := member
  fresh _ _ _ member := .inl member
  fits _ _ fits := fits

theorem Repaired.trans {old between new : Adjacency} (first : Repaired ctx old between)
    (second : Repaired ctx between new) : Repaired ctx old new where
  frame nodeId level fixed :=
    (second.frame nodeId level fixed).trans (first.frame nodeId level fixed)
  kept nodeId level target member live :=
    second.kept nodeId level target (first.kept nodeId level target member live) live
  fresh nodeId level target member := by
    rcases second.fresh nodeId level target member with earlier | new
    · rcases first.fresh nodeId level target earlier with old | ⟨live, targetLive, back⟩
      · exact .inl old
      · exact .inr ⟨live, targetLive, second.kept target level nodeId back live⟩
    · exact .inr new
  fits nodeId level fits := second.fits nodeId level (first.fits nodeId level fits)

theorem repaired_foldl {α : Type} {step : Adjacency → α → Adjacency} {items : List α}
    (one : ∀ adjacency, ∀ item ∈ items, Repaired ctx adjacency (step adjacency item))
    (adjacency : Adjacency) : Repaired ctx adjacency (items.foldl step adjacency) := by
  induction items generalizing adjacency with
  | nil => exact .refl adjacency
  | cons item rest ih =>
    exact (one adjacency item List.mem_cons_self).trans
      (ih (fun adjacency other member => one adjacency other (List.mem_cons_of_mem _ member)) _)

/-- A live source's list with a live node written and that node's list with the source written, and
every other list as it was. -/
theorem repaired_of_writes {adjacency new : Adjacency} {level source replacement : Nat}
    {forward back : List Nat} (sourceLive : isReplaceable ctx source = false)
    (replacementLive : isReplaceable ctx replacement = false)
    (sourceStored : repairsLevel ctx source level = true)
    (replacementStored : repairsLevel ctx replacement level = true)
    (write : WritesReference ctx (adjacency source level) forward replacement (levelM ctx.m level))
    (atSource : new source level = forward) (atReplacement : new replacement level = back)
    (elsewhere : ∀ nodeId other, ¬ (other = level ∧ (nodeId = source ∨ nodeId = replacement)) →
      new nodeId other = adjacency nodeId other)
    (backWrite : WritesReference ctx (adjacency replacement level) back source
      (levelM ctx.m level)) : Repaired ctx adjacency new := by
  have cases (nodeId other : Nat) : (nodeId = source ∧ other = level) ∨
      (nodeId = replacement ∧ other = level) ∨ new nodeId other = adjacency nodeId other := by
    by_cases touched : other = level ∧ (nodeId = source ∨ nodeId = replacement)
    · rcases touched with ⟨rfl, rfl | rfl⟩
      · exact .inl ⟨rfl, rfl⟩
      · exact .inr (.inl ⟨rfl, rfl⟩)
    · exact .inr (.inr (elsewhere nodeId other touched))
  constructor
  · intro nodeId other useless
    rcases cases nodeId other with ⟨rfl, rfl⟩ | ⟨rfl, rfl⟩ | same
    · rw [sourceLive, sourceStored] at useless
      simp at useless
    · rw [replacementLive, replacementStored] at useless
      simp at useless
    · exact same
  · intro nodeId other target member live
    rcases cases nodeId other with ⟨rfl, rfl⟩ | ⟨rfl, rfl⟩ | same
    · rw [atSource]
      exact write.kept target member live
    · rw [atReplacement]
      exact backWrite.kept target member live
    · rwa [same]
  · intro nodeId other target member
    rcases cases nodeId other with ⟨rfl, rfl⟩ | ⟨rfl, rfl⟩ | same
    · rw [atSource] at member
      rcases write.fresh target member with old | rfl
      · exact .inl old
      · exact .inr ⟨sourceLive, replacementLive, atReplacement ▸ backWrite.written⟩
    · rw [atReplacement] at member
      rcases backWrite.fresh target member with old | rfl
      · exact .inl old
      · exact .inr ⟨replacementLive, sourceLive, atSource ▸ write.written⟩
    · exact .inl (same ▸ member)
  · intro nodeId other fits
    rcases cases nodeId other with ⟨rfl, rfl⟩ | ⟨rfl, rfl⟩ | same
    · rw [atSource]
      exact write.fits fits
    · rw [atReplacement]
      exact backWrite.fits fits
    · rwa [same]

theorem vacuumInstallReciprocal_spec {adjacency installed : Adjacency}
    {level source deadNode replacement : Nat}
    (found : vacuumInstallReciprocal ctx adjacency level source deadNode replacement =
      some installed)
    (sourceLive : isReplaceable ctx source = false)
    (replacementLive : isReplaceable ctx replacement = false)
    (sourceStored : repairsLevel ctx source level = true)
    (replacementStored : repairsLevel ctx replacement level = true)
    (dead : isReplaceable ctx deadNode = true) (apart : replacement ≠ source) :
    Repaired ctx adjacency installed := by
  unfold vacuumInstallReciprocal at found
  dsimp only at found
  cases search : (adjacency source level).idxOf? deadNode with
  | none =>
    rw [search] at found
    cases found
  | some slot =>
    rw [search] at found
    dsimp only at found
    obtain ⟨inside, isDead, -⟩ := List.findIdx?_eq_some_iff_getElem.mp search
    rw [beq_iff_eq] at isDead
    have write : WritesReference ctx (adjacency source level)
        ((adjacency source level).set slot replacement) replacement (levelM ctx.m level) :=
      writesReference_set inside (isDead ▸ dead) _
    split_ifs at found with already referred
    · obtain rfl := Option.some.inj found
      refine repaired_of_writes sourceLive replacementLive sourceStored replacementStored write
        (by simp [Adjacency.set]) rfl (fun nodeId other touched => ?_) ?_
      · unfold Adjacency.set
        rw [if_neg fun same => touched ⟨same.2, .inl same.1⟩]
      · have same : (adjacency.set source level ((adjacency source level).set slot replacement))
            replacement level = adjacency replacement level := by
          unfold Adjacency.set
          rw [if_neg fun same => apart same.1]
        rw [same]
        exact ⟨fun _ member _ => member, referred, fun _ member => .inl member, id⟩
    · obtain ⟨backSlot, free, rfl⟩ := Option.map_eq_some_iff.mp found
      refine repaired_of_writes sourceLive replacementLive sourceStored replacementStored write ?_
        (by simp [Adjacency.set]) (fun nodeId other touched => ?_) (writesReference_slot free)
      · simp [Adjacency.set, apart.symm]
      · unfold Adjacency.set
        rw [if_neg fun same => touched ⟨same.2, .inr same.1⟩,
          if_neg fun same => touched ⟨same.2, .inl same.1⟩]

theorem vacuumCandidates_live {adjacency : Adjacency} {level deadNode source : Nat}
    {candidate : Nat × Nat} (member : candidate ∈ vacuumCandidates ctx adjacency level deadNode source) :
    isCandidate ctx level source candidate.2 = true := by
  unfold vacuumCandidates at member
  obtain ⟨nodeId, collected, rfl⟩ := List.mem_map.mp ((List.mem_insertionSort _).mp member)
  generalize vacuumPool ctx adjacency level deadNode = pool at collected
  have all (pool : List Nat) : ∀ found : List Nat,
      (∀ candidate ∈ found, isCandidate ctx level source candidate = true) →
      ∀ candidate ∈ pool.foldl (fun found candidate =>
        if found.length < levelM ctx.m level * 4 ∧ isCandidate ctx level source candidate ∧
          candidate ∉ found then found ++ [candidate] else found) found,
        isCandidate ctx level source candidate = true := by
    induction pool with
    | nil => exact fun found sound => sound
    | cons head rest ih =>
      intro found sound
      simp only [List.foldl_cons]
      refine ih _ fun candidate member => ?_
      split_ifs at member with taken
      · rcases List.mem_append.mp member with old | new
        · exact sound candidate old
        · rw [List.mem_singleton.mp new]
          exact taken.2.1
      · exact sound candidate member
  exact all pool [] (fun _ none => absurd none List.not_mem_nil) nodeId collected

theorem vacuumRepairReference_spec {level deadNode source : Nat} (below : source < ctx.nodeCount)
    (stored : level < levelCapacity ctx.m) (dead : ctx.dead deadNode = true) (adjacency : Adjacency) :
    Repaired ctx adjacency (vacuumRepairReference ctx level deadNode source adjacency) := by
  unfold vacuumRepairReference
  split_ifs with skipped
  · exact .refl adjacency
  cases found : (vacuumCandidates ctx adjacency level deadNode source).findSome? fun candidate =>
      if isDiverse ctx (adjacency source level) deadNode candidate then
        vacuumInstallReciprocal ctx adjacency level source deadNode candidate.2
      else none with
  | none => exact .refl adjacency
  | some installed =>
    obtain ⟨candidate, member, chosen⟩ := List.exists_of_findSome?_eq_some found
    split_ifs at chosen with diverse
    have admissible := vacuumCandidates_live member
    simp only [isCandidate, Bool.and_eq_true, decide_eq_true_eq, bne_iff_ne,
      Bool.not_eq_true'] at admissible
    obtain ⟨⟨⟨inRange, apart⟩, live⟩, high⟩ := admissible
    simp only [not_or, Bool.not_eq_true, not_lt] at skipped
    refine vacuumInstallReciprocal_spec chosen ?_ ?_ ?_ ?_ ?_ apart
    · simp [isReplaceable, skipped.1, below]
    · simp [isReplaceable, live, inRange]
    · simp [repairsLevel, below, skipped.2.1, stored]
    · simp [repairsLevel, inRange, high, stored]
    · simp [isReplaceable, dead]

/-- **The repair of a copy of the adjacency.** -/
theorem repairAdjacencyForDeadNodes_spec (ctx : RepairContext) (adjacency : Adjacency) :
    Repaired ctx adjacency (repairAdjacencyForDeadNodes ctx adjacency) := by
  refine repaired_foldl (fun adjacency deadNode _ => ?_) adjacency
  unfold repairDeadNode
  split_ifs with dead
  · refine repaired_foldl (fun adjacency level member => ?_) adjacency
    have stored : level < levelCapacity ctx.m := by
      have inside := List.mem_range.mp (List.mem_reverse.mp member)
      unfold levelCapacity at inside ⊢
      omega
    exact repaired_foldl (fun adjacency source member =>
      vacuumRepairReference_spec (List.mem_range.mp member) stored dead adjacency) adjacency
  · exact .refl adjacency

theorem repairGraph_load (index : GraphIndex) :
    Repaired (repairContext index) (loadAdjTuple index) (loadAdjTuple (repairGraph index).1) := by
  generalize context : repairContext index = ctx
  have repaired := repairAdjacencyForDeadNodes_spec ctx (loadAllAdj ctx index)
  have sameCount : (repairGraph index).1.page.nodeCount = index.page.nodeCount ∧
      (repairGraph index).1.page.m = index.page.m := by
    dsimp only [repairGraph, vacuumRepairEntries]
    split <;> exact ⟨rfl, rfl⟩
  have cut (nodeId level : Nat) :
      (loadAllAdj ctx index nodeId level).length ≤ levelM ctx.m level := by
    rw [← context]
    unfold loadAllAdj loadAdjTuple
    split_ifs <;> simp [repairContext]
  have stored (nodeId level : Nat) (stored : repairsLevel ctx nodeId level = true) :
      loadAllAdj ctx index nodeId level = loadAdjTuple index nodeId level ∧
      loadAdjTuple (repairGraph index).1 nodeId level =
        repairAdjacencyForDeadNodes ctx (loadAllAdj ctx index) nodeId level := by
    have original : loadAllAdj ctx index nodeId level = loadAdjTuple index nodeId level :=
      if_pos stored
    have range : nodeId < index.page.nodeCount ∧ level < levelCapacity index.page.m := by
      simp only [repairsLevel, Bool.and_eq_true, decide_eq_true_eq] at stored
      rw [← context] at stored
      exact ⟨stored.1.1, stored.2⟩
    refine ⟨original, ?_⟩
    unfold loadAdjTuple at original ⊢
    rw [if_pos range] at original
    rw [sameCount.1, sameCount.2, if_pos range]
    dsimp only [repairGraph, writeRepaired]
    rw [context]
    split_ifs with changed
    · rw [List.take_of_length_le]
      have fits := repaired.fits nodeId level (cut nodeId level)
      rwa [← context] at fits ⊢
    · rw [← original]
      by_contra differs
      exact changed ⟨stored, fun same => differs same.symm⟩
  have unstored (nodeId level : Nat) (unstored : repairsLevel ctx nodeId level = false) :
      loadAdjTuple (repairGraph index).1 nodeId level = loadAdjTuple index nodeId level ∧
        repairAdjacencyForDeadNodes ctx (loadAllAdj ctx index) nodeId level = [] := by
    constructor
    · unfold loadAdjTuple
      rw [sameCount.1, sameCount.2]
      dsimp only [repairGraph, writeRepaired]
      rw [context]
      simp only [unstored, Bool.false_eq_true, false_and, if_false]
    · rw [repaired.frame nodeId level (.inr unstored)]
      exact if_neg (by rw [unstored]; exact Bool.false_ne_true)
  refine ⟨fun nodeId level fixed => ?_, fun nodeId level target member live => ?_,
    fun nodeId level target member => ?_, fun nodeId level _ => ?_⟩
  · cases has : repairsLevel ctx nodeId level with
    | true => rw [(stored nodeId level has).2, repaired.frame nodeId level fixed,
        (stored nodeId level has).1]
    | false => exact (unstored nodeId level has).1
  · cases has : repairsLevel ctx nodeId level with
    | true =>
      rw [(stored nodeId level has).2]
      exact repaired.kept nodeId level target ((stored nodeId level has).1 ▸ member) live
    | false => rwa [(unstored nodeId level has).1]
  · cases has : repairsLevel ctx nodeId level with
    | true =>
      rw [(stored nodeId level has).2] at member
      rcases repaired.fresh nodeId level target member with old | ⟨live, targetLive, back⟩
      · exact .inl ((stored nodeId level has).1 ▸ old)
      · cases targetHas : repairsLevel ctx target level with
        | true => exact .inr ⟨live, targetLive, (stored target level targetHas).2 ▸ back⟩
        | false =>
          rw [(unstored target level targetHas).2] at back
          cases back
    | false => exact .inl ((unstored nodeId level has).1 ▸ member)
  · unfold loadAdjTuple
    rw [← context]
    split_ifs <;> simp [repairContext, sameCount.2]

/-! ### The whole deletion -/

def Follows (index : GraphIndex) (level source target : Nat) : Prop :=
  target ∈ loadAdjTuple index source level

theorem isReplaceable_false_iff {index deleted : GraphIndex} (callback : Nat → Bool)
    (nodes : deleted.nodes = markDead callback index.nodes)
    (counted : deleted.page.nodeCount = index.page.nodeCount) (nodeId : Nat) :
    isReplaceable (repairContext { index with nodes := markDead callback index.nodes }) nodeId =
      false ↔ LiveNode deleted nodeId := by
  unfold LiveNode
  rw [nodes, counted]
  exact Bool.or_eq_false_iff.trans
    (and_congr (decide_eq_false_iff_not.trans not_le) Iff.rfl)

/-- What a deletion does to the references, in terms of the nodes that are alive afterwards. -/
theorem bulkDelete_references (callback : Nat → Bool) (index : GraphIndex) (level : Nat) :
    let deleted := (bulkDelete callback index).1
    (∀ source target, Follows index level source target →
      (LiveNode deleted source → LiveNode deleted target) → Follows deleted level source target) ∧
    (∀ source target, Follows deleted level source target → ¬ Follows index level source target →
      LiveNode deleted source ∧ LiveNode deleted target ∧ Follows deleted level target source) := by
  intro deleted
  by_cases nonempty : index.page.nodeCount = 0
  · have unchanged : deleted = index := by
      change (bulkDelete callback index).1 = index
      unfold bulkDelete
      rw [if_pos nonempty]
    rw [unchanged]
    exact ⟨fun _ _ follows _ => follows, fun _ _ follows new => absurd follows new⟩
  rcases bulkDelete_spec callback nonempty with ⟨-, kept⟩ | ⟨generation, repaired⟩
  · have same (source target : Nat) :
        Follows deleted level source target ↔ Follows index level source target := by
      change target ∈ loadAdjTuple (bulkDelete callback index).1 source level ↔ _
      rw [kept]
      exact Iff.rfl
    exact ⟨fun source target follows _ => (same source target).mpr follows,
      fun source target follows new => absurd ((same source target).mp follows) new⟩
  · have loads := repairGraph_load { index with nodes := markDead callback index.nodes }
    have sameLoad : loadAdjTuple deleted =
        loadAdjTuple (repairGraph { index with nodes := markDead callback index.nodes }).1 := by
      change loadAdjTuple (bulkDelete callback index).1 = _
      rw [repaired]
      rfl
    have live := @isReplaceable_false_iff index deleted callback
      (by change (bulkDelete callback index).1.nodes = _; rw [repaired]; rfl)
      (by
        change (bulkDelete callback index).1.page.nodeCount = _
        rw [repaired]
        dsimp only [repairGraph, vacuumRepairEntries]
        split <;> rfl)
    unfold Follows
    rw [sameLoad]
    refine ⟨fun source target follows reaches => ?_, fun source target follows new => ?_⟩
    · cases dead : isReplaceable
        (repairContext { index with nodes := markDead callback index.nodes }) source with
      | true =>
        rw [loads.frame source level (.inl dead)]
        exact follows
      | false =>
        exact loads.kept source level target follows
          ((live target).mpr (reaches ((live source).mp dead)))
    · rcases loads.fresh source level target follows with old | ⟨sourceLive, targetLive, back⟩
      · exact absurd old new
      · exact ⟨(live source).mp sourceLive, (live target).mp targetLive, back⟩

/-- The entry after a deletion: the old one where it is alive, else the best live node. -/
theorem bulkDelete_entryNode (callback : Nat → Bool) {index : GraphIndex} {entry : Nat}
    (recorded : index.page.entryNodeId = some entry) (known : entry < index.page.nodeCount) :
    let deleted := (bulkDelete callback index).1
    (LiveNode deleted entry → deleted.page.entryNodeId = some entry) ∧
      (¬ LiveNode deleted entry → ∀ survivor, LiveNode deleted survivor →
        ∃ best, deleted.page.entryNodeId = some best ∧ LiveNode deleted best ∧
          ∀ nodeId, LiveNode deleted nodeId →
            nodeLevel deleted.nodes nodeId ≤ nodeLevel deleted.nodes best) := by
  intro deleted
  have nonempty : index.page.nodeCount ≠ 0 := by omega
  rcases bulkDelete_spec callback nonempty with ⟨allLive, kept⟩ | ⟨generation, repaired⟩
  · have page : deleted.page = index.page := by
      change (bulkDelete callback index).1.page = _
      rw [kept]
    have live : LiveNode deleted entry := by
      refine ⟨page ▸ known, ?_⟩
      change nodeDead (bulkDelete callback index).1.nodes entry = false
      rw [kept]
      exact allLive entry known
    exact ⟨fun _ => page ▸ recorded, fun dead => absurd live dead⟩
  · have page : deleted.page = { vacuumRepairEntries
        (repairContext { index with nodes := markDead callback index.nodes }).toVacuumNodes
        index.page.nodeCount index.page with graphGeneration := generation } := by
      change (bulkDelete callback index).1.page = _
      rw [repaired]
      rfl
    have nodes : deleted.nodes = markDead callback index.nodes := by
      change (bulkDelete callback index).1.nodes = _
      rw [repaired]
      rfl
    have counted : deleted.page.nodeCount = index.page.nodeCount := by
      rw [page]
      dsimp only [vacuumRepairEntries]
      split <;> rfl
    have alive (nodeId : Nat) : LiveNode deleted nodeId ↔
        nodeId < index.page.nodeCount ∧
          nodeDead (markDead callback index.nodes) nodeId = false := by
      unfold LiveNode
      rw [nodes, counted]
    refine ⟨fun live => ?_, fun dead survivor survives => ?_⟩
    · rw [page]
      exact vacuumRepairEntries_keeps recorded known ((alive entry).mp live).2
    · obtain ⟨below, live⟩ := (alive survivor).mp survives
      rcases vacuumRepairEntries_entry
        (repairContext { index with nodes := markDead callback index.nodes }).toVacuumNodes
        index.page below live with ⟨other, old, inRange, otherLive, -⟩ | ⟨best, bestLive, chosen, -⟩
      · obtain rfl := Option.some.inj (old.symm.trans recorded)
        exact absurd ((alive other).mpr ⟨inRange, otherLive⟩) dead
      · refine ⟨best, ?_, (alive best).mpr ⟨bestLive.member, bestLive.live⟩, fun nodeId live => ?_⟩
        · rw [page]
          exact chosen
        · rw [nodes]
          obtain ⟨below, live⟩ := (alive nodeId).mp live
          exact bestLive.highest nodeId below live

/-- **What a deletion keeps reachable.** The entry stays where it is alive and is else a live node
of the highest level; a reference is only dropped between a live node and one that is not; a new
reference lies between live nodes that refer to each other; and a node that could be reached from
the entry of the end, without a step from a live node to one that is not, still can. -/
theorem bulkDelete_reach (callback : Nat → Bool) (index : GraphIndex) (level : Nat) :
    let deleted := (bulkDelete callback index).1
    (∀ entry, index.page.entryNodeId = some entry → entry < index.page.nodeCount →
      (LiveNode deleted entry → deleted.page.entryNodeId = some entry) ∧
      (¬ LiveNode deleted entry → ∀ survivor, LiveNode deleted survivor →
        ∃ best, deleted.page.entryNodeId = some best ∧ LiveNode deleted best ∧
          ∀ nodeId, LiveNode deleted nodeId →
            nodeLevel deleted.nodes nodeId ≤ nodeLevel deleted.nodes best)) ∧
    (∀ source target, Follows index level source target → ¬ Follows deleted level source target →
      LiveNode deleted source ∧ ¬ LiveNode deleted target) ∧
    (∀ source target, Follows deleted level source target → ¬ Follows index level source target →
      LiveNode deleted source ∧ LiveNode deleted target ∧ Follows deleted level target source) ∧
    ∀ entry node, deleted.page.entryNodeId = some entry →
      Relation.ReflTransGen (fun source target => Follows index level source target ∧
        (LiveNode deleted source → LiveNode deleted target)) entry node →
      Relation.ReflTransGen (Follows deleted level) entry node := by
  intro deleted
  obtain ⟨kept, fresh⟩ := bulkDelete_references callback index level
  refine ⟨fun entry recorded known => bulkDelete_entryNode callback recorded known,
    fun source target follows lost => ?_, fresh, fun entry node _ reached => ?_⟩
  · by_contra none
    refine lost (kept source target follows fun live => ?_)
    by_contra dead
    exact none ⟨live, dead⟩
  · exact Relation.ReflTransGen.mono
      (fun source target step => kept source target step.1 step.2) _ _ reached

/-! ### A node that is lost -/

/-- Four nodes of level 0: the entry refers to node 1 only, and node 1 to nodes 2 and 3. -/
def bridgeGraph : GraphIndex where
  page := {
    m := 2, nodeCount := 4, entryNodeId := some 0, entryLevel := 0, graphMaxLevel := 0
    graphGeneration := 1, segments := [], routingEntryNodeIds := [], entrySidecarNodeIds := [] }
  nodes := [0, 1, 2, 9].map fun byte => { level := 0, dead := false, code := [byte] }
  adjacency nodeId _ :=
    match nodeId with
    | 0 => [1]
    | 1 => [0, 2, 3]
    | 2 => [1]
    | 3 => [2]
    | _ => []

/-- The deletion of node 1 joins nodes 0 and 2 and leaves node 3 without a reference to it. -/
theorem bulkDelete_loses :
    ¬ ∀ (callback : Nat → Bool) (index : GraphIndex) (old new node : Nat),
      index.page.entryNodeId = some old →
      (bulkDelete callback index).1.page.entryNodeId = some new →
      LiveNode (bulkDelete callback index).1 node →
      Relation.ReflTransGen (Follows index 0) old node →
      Relation.ReflTransGen (Follows (bulkDelete callback index).1 0) new node := by
  intro always
  have reached := always (· == 1) bridgeGraph 0 0 3 rfl (by decide +kernel)
    ⟨by decide +kernel, by decide +kernel⟩
    (.tail (.single (show 1 ∈ loadAdjTuple bridgeGraph 0 0 by decide))
      (show 3 ∈ loadAdjTuple bridgeGraph 1 0 by decide))
  have closed : ∀ node, Relation.ReflTransGen (Follows (bulkDelete (· == 1) bridgeGraph).1 0) 0 node →
      node = 0 ∨ node = 2 := by
    intro node reached
    induction reached with
    | refl => exact .inl rfl
    | tail _ step ih =>
      unfold Follows at step
      rcases ih with rfl | rfl
      · rw [show loadAdjTuple (bulkDelete (· == 1) bridgeGraph).1 0 0 = [2] by decide +kernel] at step
        exact .inr (List.mem_singleton.mp step)
      · rw [show loadAdjTuple (bulkDelete (· == 1) bridgeGraph).1 2 0 = [0] by decide +kernel] at step
        exact .inl (List.mem_singleton.mp step)
  exact absurd (closed 3 reached) (by decide)

end TurboHybrid.Graph
