/-
**A bounded list that compares with its last element only.**

An element is appended while there is room; after that it takes the place of the last one when it
comes before it. The list is not sorted again, so all later elements compete for one slot.

* `offerLast_run`: a list of elements leaves its first ones and the least of the others;
* `lastSlot_best_iff`: exactly when these are the least elements of all.
-/
import TurboHybrid.Library.TopK
import Mathlib.Data.List.MinMax

namespace TurboHybrid.Library.LastSlot

variable {α : Type*} [LinearOrder α]

def offerLast (target : Nat) (kept : List α) (item : α) : List α :=
  if kept.length < target then kept ++ [item]
  else
    match kept.getLast? with
    | none => kept
    | some last => if item < last then kept.dropLast ++ [item] else kept

/-- What is left of a list: its first `n` elements and the least of the others. -/
def lastSlot (n : Nat) (all : List α) : List α :=
  all.take n ++ (all.drop n).min?.toList

theorem lastSlot_of_le {n : Nat} {all : List α} (room : all.length ≤ n + 1) :
    lastSlot n all = all := by
  have few : (all.drop n).length ≤ 1 := by
    rw [List.length_drop]
    omega
  have same : (all.drop n).min?.toList = all.drop n := by
    rcases rest : all.drop n with _ | ⟨one, _ | ⟨two, more⟩⟩
    · rfl
    · rfl
    · rw [rest, List.length_cons, List.length_cons] at few
      omega
  rw [lastSlot, same, List.take_append_drop]

theorem min?_append_singleton (rest : List α) (item : α) :
    (rest ++ [item]).min? = some (rest.min?.elim item fun least => min least item) := by
  cases rest with
  | nil => rfl
  | cons first rest =>
    rw [List.cons_append, List.min?_cons', List.min?_cons', List.foldl_append]
    rfl

/-- **One offer.** -/
theorem offerLast_lastSlot (n : Nat) (all : List α) (item : α) :
    offerLast (n + 1) (lastSlot n all) item = lastSlot n (all ++ [item]) := by
  rcases Nat.lt_or_ge all.length (n + 1) with room | full
  · have more : (all ++ [item]).length ≤ n + 1 := by
      rw [List.length_append, List.length_singleton]
      exact room
    rw [lastSlot_of_le room.le, lastSlot_of_le more]
    exact if_pos room
  · obtain ⟨first, rest, split⟩ : ∃ first rest, all.drop n = first :: rest := by
      refine List.exists_cons_of_length_pos ?_
      rw [List.length_drop]
      omega
    have count : (all.take n).length = n := List.length_take_of_le (by omega)
    have kept : lastSlot n all = all.take n ++ [rest.foldl min first] := by
      rw [lastSlot, split, List.min?_cons']
      rfl
    have next : lastSlot n (all ++ [item]) =
        all.take n ++ [min (rest.foldl min first) item] := by
      rw [lastSlot, List.take_append_of_le_length (by omega),
        List.drop_append_of_le_length (by omega), split, min?_append_singleton, List.min?_cons']
      rfl
    have length : ¬(all.take n ++ [rest.foldl min first]).length < n + 1 := by
      rw [List.length_append, count, List.length_singleton]
      exact lt_irrefl _
    rw [kept, next, offerLast, if_neg length, List.getLast?_concat, List.dropLast_concat]
    dsimp only
    split_ifs with less
    · rw [min_eq_right less.le]
    · rw [min_eq_left (not_lt.mp less)]

/-- **A run of offers**, from a list that has its place. -/
theorem offerLast_run {n : Nat} {start : List α} (room : start.length ≤ n + 1)
    (extra : List α) :
    extra.foldl (offerLast (n + 1)) start = lastSlot n (start ++ extra) := by
  induction extra using List.reverseRecOn with
  | nil => rw [List.foldl_nil, List.append_nil, lastSlot_of_le room]
  | append_singleton extra item ih =>
    rw [List.foldl_append, ih, ← List.append_assoc, ← offerLast_lastSlot]
    rfl

theorem lastSlot_split {n : Nat} {all : List α} (many : n < all.length) :
    ∃ least, lastSlot n all = all.take n ++ [least] ∧ least ∈ all.drop n ∧
      (∀ other ∈ all.drop n, least ≤ other) ∧
      all.Perm (lastSlot n all ++ (all.drop n).erase least) := by
  have some_ : all.drop n ≠ [] := List.drop_eq_nil_iff.not.mpr (Nat.not_le.mpr many)
  obtain ⟨least, here⟩ := Option.ne_none_iff_exists'.mp (List.min?_eq_none_iff.not.mpr some_)
  obtain ⟨member, below⟩ := List.min?_eq_some_iff.mp here
  have kept : lastSlot n all = all.take n ++ [least] := by
    rw [lastSlot, here]
    rfl
  refine ⟨least, kept, member, below, ?_⟩
  have perm := (List.perm_cons_erase member).append_left (all.take n)
  rw [List.take_append_drop] at perm
  rw [kept, List.append_assoc]
  exact perm

/-! ### When the best are kept -/

/-- The elements that have no place of their own and come before one that has. -/
def contenders (n : Nat) (all : List α) : List α :=
  (all.drop n).filter fun item => (all.take n).any fun placed => decide (item < placed)

theorem mem_contenders {n : Nat} {all : List α} {item : α} :
    item ∈ contenders n all ↔ item ∈ all.drop n ∧ ∃ placed ∈ all.take n, item < placed := by
  simp [contenders]

/-- **At most one contender**: then the elements kept are the least. -/
theorem lastSlot_selects {n : Nat} {all : List α} (distinct : all.Nodup)
    (one : (contenders n all).length ≤ 1) : TopK.Selects (n + 1) all (lastSlot n all) := by
  rcases Nat.lt_or_ge n all.length with many | few
  · obtain ⟨least, kept, member, below, perm⟩ := lastSlot_split many
    have dropped : (all.drop n).Nodup := distinct.sublist (List.drop_sublist n all)
    have count : (all.take n).length = n := List.length_take_of_le many.le
    refine ⟨⟨(all.drop n).erase least, perm, ?_⟩, ?_⟩
    · intro placed held other left
      obtain ⟨new, old⟩ := dropped.mem_erase_iff.mp left
      rw [kept] at held
      rcases List.mem_append.mp held with early | last
      · by_contra above
        -- both the least and the other one would come before the placed element
        have less : other < placed := not_le.mp above
        have first : least ∈ contenders n all :=
          mem_contenders.mpr ⟨member, placed, early, (below other old).trans_lt less⟩
        have second : other ∈ contenders n all := mem_contenders.mpr ⟨old, placed, early, less⟩
        have pair : [least, other].length ≤ (contenders n all).length := by
          refine (List.subperm_of_subset ?_ ?_).length_le
          · exact List.nodup_cons.mpr
              ⟨fun same => new (List.mem_singleton.mp same).symm, List.nodup_singleton _⟩
          · intro item member'
            rcases List.mem_cons.mp member' with rfl | last
            · exact first
            · exact List.mem_singleton.mp last ▸ second
        exact Nat.lt_irrefl 1 (pair.trans one)
      · rw [List.mem_singleton.mp last]
        exact below other old
    · rw [kept, List.length_append, count, List.length_singleton]
      omega
  · have all_ : lastSlot n all = all := lastSlot_of_le (few.trans (Nat.le_succ n))
    refine ⟨⟨[], ?_, fun _ _ _ none_ => absurd none_ List.not_mem_nil⟩, ?_⟩
    · rw [all_, List.append_nil]
    · rw [all_, min_eq_right (few.trans (Nat.le_succ n))]

/-- **When the least are kept**: at most one element without a place comes before one with a
place. -/
theorem lastSlot_best_iff {n : Nat} {all : List α} (distinct : all.Nodup) :
    (lastSlot n all).insertionSort (· ≤ ·) = TopK.best (n + 1) all ↔
      (contenders n all).length ≤ 1 := by
  refine ⟨fun same => ?_, fun one => (lastSlot_selects distinct one).sort_eq⟩
  by_contra two
  have dropped : (all.drop n).Nodup := distinct.sublist (List.drop_sublist n all)
  obtain ⟨one, rest, listed⟩ : ∃ one rest, contenders n all = one :: rest :=
    List.exists_cons_of_length_pos (by omega)
  have many : n < all.length := by
    have some_ := List.length_pos_of_mem
      (mem_contenders.mp (listed ▸ List.mem_cons_self : one ∈ contenders n all)).1
    rw [List.length_drop] at some_
    omega
  obtain ⟨least, kept, -⟩ := lastSlot_split many
  -- some contender is not the least one
  obtain ⟨other, contends, new⟩ : ∃ other ∈ contenders n all, other ≠ least := by
    by_contra none_
    have every : ∀ item ∈ contenders n all, item = least :=
      fun item here => not_not.mp fun new => none_ ⟨item, here, new⟩
    have few : (contenders n all).length ≤ [least].length :=
      (List.subperm_of_subset (dropped.filter _) fun item here =>
        List.mem_singleton.mpr (every item here)).length_le
    exact two few
  obtain ⟨old, placed, early, less⟩ := mem_contenders.mp contends
  have best (item : α) : item ∈ TopK.best (n + 1) all ↔ item ∈ lastSlot n all := by
    rw [← same]
    exact List.mem_insertionSort _
  have out : other ∉ lastSlot n all := by
    rw [kept]
    intro held
    rcases List.mem_append.mp held with first | last
    · have apart := List.nodup_append.mp ((List.take_append_drop n all).symm ▸ distinct)
      exact apart.2.2 other first other old rfl
    · exact new (List.mem_singleton.mp last)
  have inside : placed ∈ TopK.best (n + 1) all := by
    rw [best, kept]
    exact List.mem_append_left _ early
  have before := TopK.lt_of_mem_best inside (List.mem_of_mem_drop old) ((best other).not.mpr out)
  exact lt_asymm less before

end TurboHybrid.Library.LastSlot
