/-
**A list of best entries whose worst is replaced.**

A list that is not kept in order takes entries while there is room. After that it is scanned for its
worst entry, which a better one replaces in its slot.

* `worstIndex_spec`: no entry comes behind the one that the scan finds;
* `offer_selects`: one offer keeps the list a selection, by a key;
* `offerAll_best`: a whole stream leaves its best entries.
-/
import TurboHybrid.Library.TopK

namespace TurboHybrid.Library.WorstSlot

variable {α K : Type*} [LinearOrder K]

def worstIndex (better : α → α → Bool) (items : List α) : Nat :=
  (List.range items.length).foldl (fun worst index =>
    match items[worst]?, items[index]? with
    | some worstItem, some item => if better worstItem item then index else worst
    | _, _ => worst) 0

/-- Offer one entry to a list of at most `limit`. -/
def offer (better : α → α → Bool) (limit : Nat) (items : List α) (item : α) : List α :=
  if items.length < limit then items ++ [item]
  else
    match items[worstIndex better items]? with
    | some worst =>
      if better item worst then items.set (worstIndex better items) item else items
    | none => items

variable {key : α → K} {better : α → α → Bool}

/-- **The scan** ends at an entry that no other comes behind. -/
theorem worstIndex_spec (compares : ∀ one other, better one other = true ↔ key one < key other)
    {items : List α} (some_ : items ≠ []) :
    ∃ worst, items[worstIndex better items]? = some worst ∧
      ∀ other ∈ items, key other ≤ key worst := by
  have first : 0 < items.length := List.length_pos_iff.mpr some_
  have run (n : Nat) (bound : n ≤ items.length) : ∃ (slot : Nat) (worst : α),
      (List.range n).foldl (fun worst index =>
        match items[worst]?, items[index]? with
        | some worstItem, some item => if better worstItem item then index else worst
        | _, _ => worst) 0 = slot ∧ items[slot]? = some worst ∧
      ∀ index < n, ∀ item, items[index]? = some item → key item ≤ key worst := by
    induction n with
    | zero => exact ⟨0, items[0], rfl, List.getElem?_eq_getElem first, fun _ none_ => by omega⟩
    | succ n ih =>
      obtain ⟨slot, worst, found, here, top⟩ := ih (by omega)
      have next : items[n]? = some items[n] := List.getElem?_eq_getElem bound
      rw [List.range_succ, List.foldl_append, List.foldl_cons, List.foldl_nil, found]
      simp only [here, next]
      split_ifs with worse
      · refine ⟨n, items[n], rfl, next, fun index less item known => ?_⟩
        rcases Nat.lt_succ_iff_lt_or_eq.mp less with earlier | rfl
        · exact (top index earlier item known).trans ((compares _ _).mp worse).le
        · rw [Option.some.inj (known.symm.trans next)]
      · refine ⟨slot, worst, rfl, here, fun index less item known => ?_⟩
        rcases Nat.lt_succ_iff_lt_or_eq.mp less with earlier | rfl
        · exact top index earlier item known
        · rw [Option.some.inj (known.symm.trans next), ← not_lt, ← compares]
          exact worse
  obtain ⟨slot, worst, found, here, top⟩ := run items.length le_rfl
  refine ⟨worst, by rw [worstIndex, found, here], fun other member => ?_⟩
  obtain ⟨index, bound, rfl⟩ := List.getElem_of_mem member
  exact top index bound _ (List.getElem?_eq_getElem bound)

/-- **One offer** keeps the best entries. -/
theorem offer_selects (compares : ∀ one other, better one other = true ↔ key one < key other)
    {limit : Nat} {seen items : List α}
    (selects : TopK.Selects limit (seen.map key) (items.map key)) (item : α) :
    TopK.Selects limit ((seen ++ [item]).map key) ((offer better limit items item).map key) := by
  have grown : (seen ++ [item]).map key = seen.map key ++ [key item] := List.map_append
  have count := selects.count
  rw [List.length_map] at count
  rw [grown, offer]
  by_cases room : items.length < limit
  · rw [if_pos room, List.map_append]
    refine (selects.push (by rwa [List.length_map]) (key item)).of_perm (List.Perm.refl _) ?_
    exact (List.perm_append_singleton _ _).symm
  · rw [if_neg room]
    have full : (items.map key).length = limit := by
      rw [List.length_map]
      omega
    rcases Decidable.em (items.length = 0) with none_ | some_
    · rw [List.length_eq_zero_iff] at none_
      subst none_
      exact selects.keep (fun _ member => absurd member List.not_mem_nil) full
    · obtain ⟨worst, here, top⟩ :=
        worstIndex_spec compares fun none_ => some_ (List.length_eq_zero_iff.mpr none_)
      obtain ⟨bound, same⟩ := List.getElem?_eq_some_iff.mp here
      simp only [here]
      split_ifs with replaces
      · have split : items.Perm (worst :: (items.take (worstIndex better items) ++
            items.drop (worstIndex better items + 1))) := by
          conv_lhs => rw [← List.take_append_drop (worstIndex better items) items,
            List.drop_eq_getElem_cons bound, same]
          exact List.perm_middle
        rw [List.set_eq_take_append_cons_drop, if_pos bound]
        refine ((selects.of_perm (List.Perm.refl _) (split.map key)).replace ?_
          ((compares _ _).mp replaces).le ?_).of_perm (List.Perm.refl _) ?_
        · intro other member
          obtain ⟨kept, known, rfl⟩ := List.mem_map.mp member
          exact top kept (split.mem_iff.mpr (List.mem_cons_of_mem _ known))
        · rw [← List.map_cons, ← (split.map key).length_eq, full]
        · exact (List.perm_middle.map key).symm
      · refine selects.keep (fun other member => ?_) full
        obtain ⟨kept, known, rfl⟩ := List.mem_map.mp member
        refine (top kept known).trans ?_
        rw [← not_lt, ← compares]
        exact replaces

/-- **A whole stream** leaves its best entries. -/
theorem offerAll_best (compares : ∀ one other, better one other = true ↔ key one < key other)
    (limit : Nat) (items : List α) :
    ((items.foldl (offer better limit) []).map key).Perm (TopK.best limit (items.map key)) := by
  have run (seen kept more : List α)
      (selects : TopK.Selects limit (seen.map key) (kept.map key)) :
      TopK.Selects limit ((seen ++ more).map key)
        ((more.foldl (offer better limit) kept).map key) := by
    induction more generalizing seen kept with
    | nil => rwa [List.append_nil]
    | cons item rest ih =>
      rw [List.append_cons]
      exact ih _ _ (offer_selects compares selects item)
  exact (run [] [] items (TopK.selects_nil limit)).perm_best

end TurboHybrid.Library.WorstSlot
