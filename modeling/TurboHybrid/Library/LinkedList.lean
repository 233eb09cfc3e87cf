/-
**Doubly linked lists in memory.**

A list is its cells, reached by address, and the addresses of its first and its last cell. Cells can
be freed; an operation that follows an address to no cell fails.

* `Linked`: the cells of a list are those of a sequence of addresses and bodies;
* `Linked.remove`: a cell is taken out of any place;
* `Linked.pushHead`: a cell outside becomes the first;
* `Linked.write`: a body is written in place.
-/
import Mathlib.Data.List.Nodup
import Mathlib.Logic.Function.Basic
import Mathlib.Tactic.Common

namespace TurboHybrid.Library

universe u

variable {Body : Type u}

structure Cell (Body : Type u) where
  prev : Option Nat
  next : Option Nat
  body : Body

abbrev Memory (Body : Type u) := Nat → Option (Cell Body)

/-- Write through an address; without a cell there it fails. -/
def Memory.modify (memory : Memory Body) (address : Nat) (change : Cell Body → Cell Body) :
    Option (Memory Body) :=
  (memory address).map fun cell => Function.update memory address (some (change cell))

structure LinkedList (Body : Type u) where
  memory : Memory Body
  head : Option Nat
  tail : Option Nat

namespace LinkedList

variable (list : LinkedList Body)

/-- The place before an address now leads to another. -/
def linkNext (prev next : Option Nat) : Option (LinkedList Body) :=
  match prev with
  | some before =>
    (list.memory.modify before fun cell => { cell with next }).map fun memory =>
      { list with memory }
  | none => some { list with head := next }

/-- The place after an address now leads back to another. -/
def linkPrev (prev next : Option Nat) : Option (LinkedList Body) :=
  match next with
  | some after =>
    (list.memory.modify after fun cell => { cell with prev }).map fun memory =>
      { list with memory }
  | none => some { list with tail := prev }

def remove (address : Nat) : Option (LinkedList Body) := do
  let cell ← list.memory address
  let list ← list.linkNext cell.prev cell.next
  let list ← list.linkPrev cell.prev cell.next
  let memory ← list.memory.modify address fun cell => { cell with prev := none, next := none }
  return { list with memory }

def pushHead (address : Nat) : Option (LinkedList Body) := do
  let memory ← list.memory.modify address fun cell => { cell with prev := none, next := list.head }
  let list ← ({ list with memory } : LinkedList Body).linkPrev (some address) list.head
  return { list with head := some address }

/-! ### What a list holds -/

def first (nodes : List (Nat × Body)) : Option Nat := nodes.head?.map Prod.fst

def last (nodes : List (Nat × Body)) : Option Nat := nodes.getLast?.map Prod.fst

/-- **The list holds a sequence** of addresses with their bodies. -/
structure Linked (list : LinkedList Body) (nodes : List (Nat × Body)) : Prop where
  head : list.head = first nodes
  tail : list.tail = last nodes
  distinct : (nodes.map Prod.fst).Nodup
  cell : ∀ before node after, nodes = before ++ node :: after →
    list.memory node.1 = some ⟨last before, first after, node.2⟩

variable {list} {nodes before after : List (Nat × Body)} {node : Nat × Body}

theorem first_append (before after : List (Nat × Body)) :
    first (before ++ after) = (first before).or (first after) := by
  unfold first
  rw [List.head?_append, Option.map_or]

theorem last_append (before after : List (Nat × Body)) :
    last (before ++ after) = (last after).or (last before) := by
  unfold last
  rw [List.getLast?_append, Option.map_or]

theorem mem_of_first {address : Nat} (found : first nodes = some address) :
    address ∈ nodes.map Prod.fst := by
  obtain ⟨node, head, rfl⟩ := Option.map_eq_some_iff.mp found
  exact List.mem_map_of_mem (List.mem_of_head? head)

theorem mem_of_last {address : Nat} (found : last nodes = some address) :
    address ∈ nodes.map Prod.fst := by
  obtain ⟨node, last, rfl⟩ := Option.map_eq_some_iff.mp found
  exact List.mem_map_of_mem (List.mem_of_getLast? last)

theorem linked_nil (memory : Memory Body) : Linked ⟨memory, none, none⟩ [] :=
  ⟨rfl, rfl, List.nodup_nil, fun before node after split => by simp at split⟩

namespace Linked

variable (linked : Linked list nodes)
include linked

theorem cell_mem {node : Nat × Body} (member : node ∈ nodes) :
    ∃ prev next, list.memory node.1 = some ⟨prev, next, node.2⟩ := by
  obtain ⟨before, after, split⟩ := List.append_of_mem member
  exact ⟨_, _, linked.cell before node after split⟩

end Linked

/-! ### Taking a cell out -/

/-- The memory after the links around a cell were closed. -/
def closedMemory (memory : Memory Body) (prev next : Option Nat) (address : Nat) (body : Body) :
    Memory Body := fun other =>
  if other = address then some ⟨none, none, body⟩
  else if prev = some other then (memory other).map fun cell => { cell with next }
  else if next = some other then (memory other).map fun cell => { cell with prev }
  else memory other

theorem apart (distinct : ((before ++ node :: after).map Prod.fst).Nodup) :
    last before ≠ some node.1 ∧ first after ≠ some node.1 ∧
      ∀ address, last before = some address → first after ≠ some address := by
  rw [List.map_append, List.map_cons, List.nodup_append, List.nodup_cons] at distinct
  obtain ⟨-, ⟨notAfter, -⟩, disjoint⟩ := distinct
  refine ⟨fun found => ?_, fun found => notAfter (mem_of_first found), fun address found found' => ?_⟩
  · exact disjoint _ (mem_of_last found) _ List.mem_cons_self rfl
  · exact disjoint _ (mem_of_last found) _ (List.mem_cons_of_mem _ (mem_of_first found')) rfl

theorem remove_eq (linked : Linked list (before ++ node :: after)) :
    list.remove node.1 = some
      { memory := closedMemory list.memory (last before) (first after) node.1 node.2
        head := (first before).or (first after)
        tail := (last after).or (last before) } := by
  obtain ⟨notLast, notFirst, differ⟩ := apart linked.distinct
  have here := linked.cell before node after rfl
  have head := linked.head
  have tail := linked.tail
  rw [first_append, show first (node :: after) = some node.1 from rfl] at head
  rw [last_append, ← List.singleton_append, last_append] at tail
  unfold remove
  rw [here]
  simp only [Option.bind_eq_bind, Option.bind_some]
  -- the cell before, or the head
  obtain ⟨opened, linkedNext, openedEq⟩ : ∃ opened,
      list.linkNext (last before) (first after) = some opened ∧ opened =
        { memory := fun other => if last before = some other then
            (list.memory other).map fun cell => { cell with next := first after }
            else list.memory other
          head := (first before).or (first after)
          tail := list.tail } := by
    refine ⟨_, ?_, rfl⟩
    rcases List.eq_nil_or_concat' before with rfl | ⟨init, prev, rfl⟩
    · show some _ = some _
      have unlinked : last ([] : List (Nat × Body)) = none := rfl
      simp only [unlinked, reduceCtorEq, if_false]
      rfl
    · have lastEq : last (init ++ [prev]) = some prev.1 := by simp [last]
      have prevCell := linked.cell init prev (node :: after) (by simp)
      rw [lastEq]
      simp only [linkNext, Memory.modify, prevCell, Option.map_some]
      refine congrArg some ?_
      congr 1
      · funext other
        by_cases same : prev.1 = other
        · subst same
          simp [prevCell]
        · rw [Function.update_of_ne (Ne.symm same), if_neg (by simpa using same)]
      · rw [head]
        cases found : first (init ++ [prev]) with
        | none => simp [first] at found
        | some address => rfl
  rw [linkedNext, Option.bind_some, openedEq]
  -- the cell after, or the tail
  obtain ⟨closed, linkedPrev, closedEq⟩ : ∃ closed,
      opened.linkPrev (last before) (first after) = some closed ∧ closed =
        { memory := fun other => if first after = some other then
            (opened.memory other).map fun cell => { cell with prev := last before }
            else opened.memory other
          head := opened.head
          tail := (last after).or (last before) } := by
    refine ⟨_, ?_, rfl⟩
    cases after with
    | nil =>
      show some _ = some _
      have unlinked : first ([] : List (Nat × Body)) = none := rfl
      simp only [unlinked, reduceCtorEq, if_false]
      rfl
    | cons next rest =>
      have nextCell := linked.cell (before ++ [node]) next rest (by simp)
      have nextOpened : opened.memory next.1 = some ⟨last (before ++ [node]), first rest, next.2⟩ := by
        rw [openedEq]
        show (if last before = some next.1 then _ else _) = _
        rw [if_neg fun found => differ next.1 found rfl, nextCell]
      show (Memory.modify opened.memory next.1 _).map _ = _
      simp only [Memory.modify, nextOpened, Option.map_some]
      refine congrArg some ?_
      congr 1
      · funext other
        show _ = if some next.1 = some other then _ else _
        by_cases same : next.1 = other
        · subst same
          simp [nextOpened]
        · rw [Function.update_of_ne (Ne.symm same), if_neg (by simpa using same)]
      · rw [openedEq]
        show list.tail = _
        rw [tail]
        cases found : last (next :: rest) with
        | none => simp [last] at found
        | some address => simp
  rw [← openedEq, linkedPrev, Option.bind_some]
  have there : closed.memory node.1 = list.memory node.1 := by
    rw [closedEq]
    show (if first after = some node.1 then _ else opened.memory node.1) = _
    rw [if_neg notFirst, openedEq]
    exact if_neg notLast
  simp only [Memory.modify, there, here, Option.map_some, Option.bind_some]
  refine congrArg some ?_
  rw [closedEq, openedEq]
  simp only [LinkedList.mk.injEq, and_true]
  funext other
  unfold closedMemory
  by_cases same : other = node.1
  · subst same
    simp
  · rw [Function.update_of_ne same, if_neg same]
    by_cases isLast : last before = some other
    · rw [if_pos isLast, if_pos isLast, if_neg (differ other isLast)]
    · rw [if_neg isLast, if_neg isLast]

/-- **A cell is taken out** of any place of the list. -/
theorem Linked.remove (linked : Linked list (before ++ node :: after)) :
    ∃ closed, list.remove node.1 = some closed ∧ Linked closed (before ++ after) ∧
      closed.memory node.1 = some ⟨none, none, node.2⟩ ∧
      ∀ other, other ∉ (before ++ node :: after).map Prod.fst →
        closed.memory other = list.memory other := by
  obtain ⟨notLast, notFirst, differ⟩ := apart linked.distinct
  have distinct := linked.distinct
  rw [List.map_append, List.map_cons] at distinct
  refine ⟨_, remove_eq linked, ⟨(first_append _ _).symm, (last_append _ _).symm, ?_, ?_⟩, ?_, ?_⟩
  · rw [List.map_append]
    exact (List.nodup_middle.mp distinct).of_cons
  · have unlike {other : Nat × Body} (member : other ∈ before ++ after) : other.1 ≠ node.1 := by
      intro same
      have gone := (List.nodup_cons.mp (List.nodup_middle.mp distinct)).1
      rw [← List.map_append] at gone
      exact gone (same ▸ List.mem_map_of_mem member)
    intro left other right split
    have member : other ∈ before ++ after := split ▸ List.mem_append_right _ List.mem_cons_self
    show closedMemory _ _ _ _ _ _ = _
    unfold closedMemory
    rw [if_neg (unlike member)]
    rcases List.append_eq_append_iff.mp split with ⟨mid, front, back⟩ | ⟨mid, front, back⟩
    · -- the node stands behind the gap
      have cell := linked.cell (before ++ node :: mid) other right (by rw [back]; simp)
      have notBefore : last before ≠ some other.1 := by
        intro found
        have disjoint := (List.nodup_append.mp distinct).2.2
        refine disjoint _ (mem_of_last found) _ (List.mem_cons_of_mem _ ?_) rfl
        rw [back]
        exact List.mem_map_of_mem (List.mem_append_right _ List.mem_cons_self)
      rw [if_neg notBefore, cell]
      cases mid with
      | nil =>
        rw [back, if_pos (show first ([] ++ other :: right) = some other.1 from rfl), front,
          List.append_nil]
        rfl
      | cons next rest =>
        have notNext : first after ≠ some other.1 := by
          intro found
          have inner := (List.nodup_append.mp distinct).2.1.of_cons
          rw [back] at found inner
          have same : next.1 = other.1 := Option.some.inj found
          rw [List.cons_append, List.map_cons, List.nodup_cons] at inner
          exact inner.1 (same ▸ List.mem_map_of_mem (List.mem_append_right _ List.mem_cons_self))
        rw [if_neg notNext, front, last_append, last_append, ← List.singleton_append (x := node),
          last_append]
        cases found : last (next :: rest) with
        | none => simp [last] at found
        | some address => rfl
    · -- the node stands before the gap
      cases mid with
      | nil =>
        -- it is the first behind it, or the last before it
        rw [List.nil_append] at back
        rw [List.append_nil] at front
        have cell := linked.cell (before ++ [node]) other right (by rw [← back]; simp)
        have notBefore : last before ≠ some other.1 := by
          intro found
          have disjoint := (List.nodup_append.mp distinct).2.2
          refine disjoint _ (mem_of_last found) _ (List.mem_cons_of_mem _ ?_) rfl
          rw [← back]
          exact List.mem_map_of_mem List.mem_cons_self
        rw [if_neg notBefore, cell, if_pos (by rw [← back]; rfl), front]
        rfl
      | cons same rest =>
        rw [List.cons_append, List.cons.injEq] at back
        obtain ⟨rfl, back⟩ := back
        have cell := linked.cell left other (rest ++ node :: after) (by rw [front]; simp)
        rw [cell, back]
        cases rest with
        | nil =>
          rw [if_pos (by rw [front]; simp [last])]
          rfl
        | cons next rest =>
          have beforeDistinct := (List.nodup_append.mp distinct).1
          rw [front, List.map_append, List.map_cons, List.nodup_append, List.nodup_cons] at beforeDistinct
          have notBefore : last before ≠ some other.1 := by
            rw [front, last_append, ← List.singleton_append (x := other), last_append]
            intro found
            have inner : last (next :: rest) = some other.1 := by
              cases here : last (next :: rest) with
              | none => simp [last] at here
              | some address =>
                rw [here] at found
                exact found
            exact beforeDistinct.2.1.1 (mem_of_last inner)
          have notNext : first after ≠ some other.1 := by
            intro found
            have disjoint := (List.nodup_append.mp distinct).2.2
            refine disjoint other.1 ?_ _ (List.mem_cons_of_mem _ (mem_of_first found)) rfl
            rw [front]
            exact List.mem_map_of_mem (List.mem_append_right _ List.mem_cons_self)
          rw [if_neg notBefore, if_neg notNext]
          rfl
  · exact if_pos rfl
  · intro other outside
    rw [List.map_append, List.map_cons, List.mem_append, List.mem_cons, not_or, not_or] at outside
    show closedMemory _ _ _ _ _ _ = _
    unfold closedMemory
    rw [if_neg outside.2.1, if_neg fun found => outside.1 (mem_of_last found),
      if_neg fun found => outside.2.2 (mem_of_first found)]

/-! ### Cells outside -/

theorem Linked.congr (linked : Linked list nodes) {memory : Memory Body}
    (same : ∀ address ∈ nodes.map Prod.fst, memory address = list.memory address) :
    Linked { list with memory } nodes := by
  refine ⟨linked.head, linked.tail, linked.distinct, fun before node after split => ?_⟩
  refine (same node.1 (List.mem_map_of_mem ?_)).trans (linked.cell before node after split)
  rw [split]
  exact List.mem_append_right _ List.mem_cons_self

/-- **A cell outside** becomes the first of the list. -/
theorem Linked.pushHead (linked : Linked list nodes) {address : Nat} {prev next : Option Nat}
    {body : Body} (there : list.memory address = some ⟨prev, next, body⟩)
    (outside : address ∉ nodes.map Prod.fst) :
    ∃ pushed, list.pushHead address = some pushed ∧ Linked pushed ((address, body) :: nodes) ∧
      ∀ other, other ≠ address → other ∉ nodes.map Prod.fst →
        pushed.memory other = list.memory other := by
  unfold LinkedList.pushHead
  simp only [Memory.modify, there, Option.map_some, Option.bind_eq_bind, Option.bind_some]
  cases nodes with
  | nil =>
    have head : list.head = none := linked.head
    rw [head]
    refine ⟨_, rfl, ⟨rfl, rfl, List.nodup_singleton _, fun before node after split => ?_⟩,
      fun other different _ => Function.update_of_ne different _ _⟩
    obtain ⟨rfl, single⟩ : before = [] ∧ [(address, body)] = node :: after := by
      cases before with
      | nil => exact ⟨rfl, split⟩
      | cons one rest =>
        have lengths := congrArg List.length split
        simp only [List.length_cons, List.length_append, List.length_nil] at lengths
        omega
    cases single
    exact Function.update_self _ _ _
  | cons node rest =>
    obtain ⟨nodeAddress, nodeBody⟩ := node
    have head : list.head = some nodeAddress := linked.head
    have different : address ≠ nodeAddress := fun same => outside (same ▸ List.mem_cons_self)
    have old := linked.cell [] (nodeAddress, nodeBody) rest rfl
    rw [head]
    simp only [linkPrev, Memory.modify, Function.update_of_ne (Ne.symm different), old,
      Option.map_some, Option.bind_some]
    refine ⟨_, rfl, ⟨rfl, ?_, ?_, fun before node after split => ?_⟩, fun other apart absent => ?_⟩
    · rw [show last ((address, body) :: (nodeAddress, nodeBody) :: rest) =
        last ((nodeAddress, nodeBody) :: rest) by simp [last]]
      exact linked.tail
    · exact List.nodup_cons.mpr ⟨outside, linked.distinct⟩
    · cases before with
      | nil =>
        cases split
        show Function.update _ nodeAddress _ address = _
        rw [Function.update_of_ne different, Function.update_self]
        rfl
      | cons one before =>
        rw [List.cons_append, List.cons.injEq] at split
        obtain ⟨rfl, split⟩ := split
        have inside : node ∈ (nodeAddress, nodeBody) :: rest :=
          split ▸ List.mem_append_right _ List.mem_cons_self
        have apart : node.1 ≠ address := fun same => outside (same ▸ List.mem_map_of_mem inside)
        show Function.update _ nodeAddress _ node.1 = _
        cases before with
        | nil =>
          cases split
          rw [Function.update_self]
          rfl
        | cons two before =>
          have cell := linked.cell (two :: before) node after split
          have later : node.1 ≠ nodeAddress := by
            have distinct := linked.distinct
            have behind : node ∈ rest := by
              rw [(List.cons.inj split).2]
              exact List.mem_append_right _ List.mem_cons_self
            exact fun same => (List.nodup_cons.mp distinct).1 (List.mem_map.mpr ⟨node, behind, same⟩)
          rw [Function.update_of_ne later, Function.update_of_ne apart, cell]
          rw [show last ((address, body) :: two :: before) = last (two :: before) by simp [last]]
    · show Function.update _ nodeAddress _ other = _
      have later : other ≠ nodeAddress := by
        rintro rfl
        exact absent List.mem_cons_self
      rw [Function.update_of_ne later, Function.update_of_ne apart]

theorem Linked.write (linked : Linked list (before ++ node :: after)) (change : Body → Body) :
    ∃ memory, (list.memory.modify node.1 fun cell => { cell with body := change cell.body }) =
        some memory ∧
      Linked { list with memory } (before ++ (node.1, change node.2) :: after) ∧
      ∀ other, other ≠ node.1 → memory other = list.memory other := by
  have here := linked.cell before node after rfl
  have distinct := linked.distinct
  have sameAddresses : (before ++ (node.1, change node.2) :: after).map Prod.fst =
      (before ++ node :: after).map Prod.fst := by simp
  have ends (list : List (Nat × Body)) : first (list ++ (node.1, change node.2) :: after) =
      first (list ++ node :: after) := by
    rw [first_append, first_append]
    rfl
  have ends' (list : List (Nat × Body)) : last (before ++ (node.1, change node.2) :: list) =
      last (before ++ node :: list) := by
    rw [last_append, last_append, ← List.singleton_append, last_append,
      ← List.singleton_append (x := node), last_append]
    rfl
  unfold Memory.modify
  rw [here, Option.map_some]
  refine ⟨_, rfl, ⟨linked.head.trans (ends before).symm, linked.tail.trans (ends' after).symm,
    sameAddresses ▸ distinct, fun left other right split => ?_⟩,
    fun other different => Function.update_of_ne different _ _⟩
  rcases List.append_eq_append_iff.mp split with ⟨mid, front, back⟩ | ⟨mid, front, back⟩
  · cases mid with
    | nil =>
      rw [List.nil_append, List.cons.injEq] at back
      obtain ⟨rfl, rfl⟩ := back
      rw [front, List.append_nil]
      exact Function.update_self _ _ _
    | cons same rest =>
      rw [List.cons_append, List.cons.injEq] at back
      obtain ⟨rfl, back⟩ := back
      have cell := linked.cell (before ++ node :: rest) other right (by rw [back]; simp)
      have apart : other.1 ≠ node.1 := by
        rw [back, List.map_append, List.map_cons, List.map_append, List.map_cons] at distinct
        have inner := (List.nodup_append.mp distinct).2.1
        rw [List.nodup_cons, List.mem_append, not_or] at inner
        exact fun same => inner.1.2 (same ▸ List.mem_cons_self)
      show Function.update _ _ _ _ = _
      rw [Function.update_of_ne apart, cell, front, ends']
  · cases mid with
    | nil =>
      rw [List.nil_append, List.cons.injEq] at back
      obtain ⟨rfl, rfl⟩ := back
      rw [List.append_nil] at front
      rw [front]
      exact Function.update_self _ _ _
    | cons same rest =>
      rw [List.cons_append, List.cons.injEq] at back
      obtain ⟨rfl, back⟩ := back
      have cell := linked.cell left other (rest ++ node :: after) (by rw [front]; simp)
      have apart : other.1 ≠ node.1 := by
        rw [List.map_append] at distinct
        have disjoint := (List.nodup_append.mp distinct).2.2
        refine disjoint _ (List.mem_map_of_mem ?_) _ List.mem_cons_self
        rw [front]
        exact List.mem_append_right _ List.mem_cons_self
      show Function.update _ _ _ _ = _
      rw [Function.update_of_ne apart, cell, back, ends]

end LinkedList

end TurboHybrid.Library
