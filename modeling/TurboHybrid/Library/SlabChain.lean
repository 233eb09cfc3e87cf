/-
**Bytes across the slabs of a chain.**

A slab has data and the block of the next slab. A reader starts at an offset of a slab and crosses to
the next one when the data ends. Data is put behind the data of a slab without a next one, and a slab
is linked to an empty one when it is full.

* `readSlabs_extends`: what was read is read again after any such change;
* `Holds.put`, `Holds.link`: data that reaches the end of a chain goes on at its end;
* `Holds.read`: data that reaches from an offset to the end of a chain is read from there.
-/
import Mathlib.Data.List.Basic
import Mathlib.Logic.Function.Basic
import Mathlib.Order.Nat
import Mathlib.Tactic.Common

namespace TurboHybrid.Library

structure Slab (Byte : Type*) where
  data : List Byte
  next : Option Nat
  deriving DecidableEq, Repr

section

variable {Byte : Type*}

def readSlabs (slabAt : Nat → Option (Slab Byte)) :
    Nat → Option Nat → Nat → Nat → Option (List Byte)
  | _, _, _, 0 => some []
  | 0, _, _, _ + 1 => none
  | _ + 1, none, _, _ + 1 => none
  | fuel + 1, some block, offset, size + 1 =>
    match slabAt block with
    | none => none
    | some slab =>
      if slab.data.length ≤ offset then none
      else
        (readSlabs slabAt fuel slab.next 0
          (size + 1 - ((slab.data.drop offset).take (size + 1)).length)).map
            ((slab.data.drop offset).take (size + 1) ++ ·)

/-- Slabs with a next one stay as they are, the others keep their data at the front. -/
def Extends (slabAt changed : Nat → Option (Slab Byte)) : Prop :=
  ∀ block slab, slabAt block = some slab → ∃ longer, changed block = some longer ∧
    slab.data <+: longer.data ∧ (slab.next.isSome → longer = slab)

/-- From an offset of a block to the end of the last block there are these bytes, through full
slabs. -/
inductive Holds (slabAt : Nat → Option (Slab Byte)) (capacity : Nat) :
    Nat → Nat → List Byte → Nat → Prop where
  | last {block offset : Nat} {slab : Slab Byte} (here : slabAt block = some slab)
      (room : offset < capacity) (inside : offset ≤ slab.data.length) :
      Holds slabAt capacity block offset (slab.data.drop offset) block
  | cross {block offset next final : Nat} {slab : Slab Byte} {rest : List Byte}
      (here : slabAt block = some slab) (room : offset < capacity)
      (full : slab.data.length = capacity) (link : slab.next = some next)
      (later : Holds slabAt capacity next 0 rest final) :
      Holds slabAt capacity block offset (slab.data.drop offset ++ rest) final

variable {slabAt changed : Nat → Option (Slab Byte)} {capacity : Nat}

/-! ### Changes that extend -/

theorem Extends.refl (slabAt : Nat → Option (Slab Byte)) : Extends slabAt slabAt :=
  fun _ slab here => ⟨slab, here, List.prefix_refl _, fun _ => rfl⟩

theorem Extends.trans {later : Nat → Option (Slab Byte)} (first : Extends slabAt changed)
    (second : Extends changed later) : Extends slabAt later := by
  intro block slab here
  obtain ⟨longer, there, front, kept⟩ := first block slab here
  obtain ⟨longest, last, more, fixed⟩ := second block longer there
  refine ⟨longest, last, front.trans more, ?_⟩
  intro linked
  obtain rfl := kept linked
  exact fixed linked

theorem extends_fresh {fresh : Nat} {slab : Slab Byte} (absent : slabAt fresh = none) :
    Extends slabAt (Function.update slabAt fresh (some slab)) := by
  intro block old here
  refine ⟨old, ?_, List.prefix_refl _, fun _ => rfl⟩
  rw [Function.update_of_ne, here]
  rintro rfl
  rw [absent] at here
  cases here

theorem extends_last {block : Nat} {slab longer : Slab Byte} (here : slabAt block = some slab)
    (ended : slab.next = none) (front : slab.data <+: longer.data) :
    Extends slabAt (Function.update slabAt block (some longer)) := by
  intro other old there
  by_cases same : other = block
  · subst same
    obtain rfl := Option.some.inj (here.symm.trans there)
    refine ⟨longer, Function.update_self _ _ _, front, ?_⟩
    intro linked
    rw [ended] at linked
    cases linked
  · exact ⟨old, (Function.update_of_ne same _ _).trans there, List.prefix_refl _, fun _ => rfl⟩

/-- **What was read is read again.** -/
theorem readSlabs_extends (extend : Extends slabAt changed) {fuel more : Nat} (enough : fuel ≤ more)
    {start : Option Nat} {offset size : Nat} {bytes : List Byte}
    (read : readSlabs slabAt fuel start offset size = some bytes) :
    readSlabs changed more start offset size = some bytes := by
  induction fuel generalizing more start offset size bytes with
  | zero =>
    cases size with
    | zero => simpa only [readSlabs] using read
    | succ size => simp only [readSlabs, reduceCtorEq] at read
  | succ fuel ih =>
    obtain ⟨more, rfl⟩ : ∃ less, more = less + 1 := ⟨more - 1, by omega⟩
    cases size with
    | zero => simpa only [readSlabs] using read
    | succ size =>
      cases start with
      | none => simp only [readSlabs, reduceCtorEq] at read
      | some block =>
        rw [readSlabs] at read ⊢
        cases here : slabAt block with
        | none =>
          rw [here] at read
          cases read
        | some slab =>
          rw [here] at read
          obtain ⟨longer, there, front, kept⟩ := extend block slab here
          rw [there]
          dsimp only at read ⊢
          split_ifs at read with short
          obtain ⟨rest, tail, rfl⟩ := Option.map_eq_some_iff.mp read
          rw [if_neg (fun shorter => short (front.length_le.trans shorter))]
          cases linked : slab.next with
          | some next =>
            obtain rfl := kept (by rw [linked]; rfl)
            rw [linked] at tail ⊢
            rw [ih (Nat.le_of_succ_le_succ enough) tail]
            rfl
          | none =>
            -- The read ended here, so it takes the same bytes of the longer data.
            rw [linked] at tail
            have whole : size + 1 ≤ (slab.data.drop offset).length := by
              by_contra less
              rw [List.length_take, min_eq_right (not_le.mp less).le] at tail
              obtain ⟨left, leftEq⟩ : ∃ left, size + 1 - (slab.data.drop offset).length = left + 1 :=
                ⟨size - (slab.data.drop offset).length, by omega⟩
              rw [leftEq] at tail
              cases fuel <;> simp only [readSlabs, reduceCtorEq] at tail
            obtain ⟨added, addedEq⟩ := front
            have same : (longer.data.drop offset).take (size + 1) =
                (slab.data.drop offset).take (size + 1) := by
              rw [← addedEq, List.drop_append_of_le_length (not_le.mp short).le,
                List.take_append_of_le_length whole]
            have none (fuel : Nat) (start : Option Nat) :
                readSlabs changed fuel start 0 (size + 1 - (size + 1)) = some [] := by
              rw [Nat.sub_self]
              cases fuel <;> rfl
            rw [same]
            rw [List.length_take, min_eq_left whole] at tail ⊢
            rw [none]
            rw [Nat.sub_self] at tail
            obtain rfl : [] = rest := by
              cases fuel <;> exact Option.some.inj tail
            rfl

/-! ### Data at the end of a chain -/

theorem Holds.start {block : Nat} {slab : Slab Byte} (here : slabAt block = some slab)
    (room : slab.data.length < capacity) : Holds slabAt capacity block slab.data.length [] block := by
  have held := Holds.last here room le_rfl
  rwa [List.drop_length] at held

theorem Holds.put {block offset final : Nat} {bytes : List Byte}
    (held : Holds slabAt capacity block offset bytes final) {slab : Slab Byte}
    (here : slabAt final = some slab) (ended : slab.next = none) (chunk : List Byte) :
    Holds (Function.update slabAt final (some ⟨slab.data ++ chunk, none⟩)) capacity block offset
      (bytes ++ chunk) final := by
  induction held with
  | last there room inside =>
    obtain rfl := Option.some.inj (here.symm.trans there)
    rw [← List.drop_append_of_le_length inside]
    refine @Holds.last _ _ _ _ _ ⟨slab.data ++ chunk, none⟩ (Function.update_self _ _ _) room ?_
    rw [List.length_append]
    exact Nat.le_add_right_of_le inside
  | @cross block offset next final crossed rest there room full link later ih =>
    rw [List.append_assoc]
    refine Holds.cross ?_ room full link (ih here)
    rw [Function.update_of_ne, there]
    rintro rfl
    obtain rfl := Option.some.inj (here.symm.trans there)
    rw [ended] at link
    cases link

theorem Holds.link {block offset final fresh : Nat} {bytes : List Byte}
    (held : Holds slabAt capacity block offset bytes final) {slab : Slab Byte}
    (here : slabAt final = some slab) (ended : slab.next = none)
    (full : slab.data.length = capacity) (absent : slabAt fresh = none) :
    Holds (Function.update (Function.update slabAt final (some ⟨slab.data, some fresh⟩)) fresh
      (some ⟨[], none⟩)) capacity block offset bytes fresh := by
  have other {block : Nat} {slab : Slab Byte} (there : slabAt block = some slab) :
      block ≠ fresh := by
    rintro rfl
    rw [absent] at there
    cases there
  induction held with
  | last there room inside =>
    obtain rfl := Option.some.inj (here.symm.trans there)
    rw [← List.append_nil (slab.data.drop _)]
    refine @Holds.cross _ _ _ _ _ _ _ ⟨slab.data, some fresh⟩ _ ?_ room full rfl ?_
    · rw [Function.update_of_ne (other there), Function.update_self]
    · exact @Holds.last _ _ _ _ _ ⟨[], none⟩ (Function.update_self _ _ _)
        (Nat.zero_lt_of_lt room) le_rfl
  | @cross block offset next final crossed rest there room crossedFull link later ih =>
    refine Holds.cross ?_ room crossedFull link (ih here)
    rw [Function.update_of_ne (other there), Function.update_of_ne, there]
    rintro rfl
    obtain rfl := Option.some.inj (here.symm.trans there)
    rw [ended] at link
    cases link

structure SlabsRising (slabAt : Nat → Option (Slab Byte)) (limit : Nat) : Prop where
  inside : ∀ block slab, slabAt block = some slab → block < limit
  later : ∀ block slab, slabAt block = some slab → ∀ next, slab.next = some next → block < next

/-- **What is held is read.** -/
theorem Holds.read {block offset final limit : Nat} {bytes : List Byte}
    (held : Holds slabAt capacity block offset bytes final) (rising : SlabsRising slabAt limit)
    {fuel : Nat} (enough : limit ≤ block + fuel) :
    readSlabs slabAt fuel (some block) offset bytes.length = some bytes := by
  induction held generalizing fuel with
  | @last block offset slab here room inside =>
    have below := rising.inside block slab here
    obtain ⟨fuel, rfl⟩ : ∃ less, fuel = less + 1 := ⟨fuel - 1, by omega⟩
    cases size : (slab.data.drop offset).length with
    | zero =>
      rw [List.length_eq_zero_iff.mp size]
      rfl
    | succ size =>
      rw [readSlabs, here]
      dsimp only
      have short : ¬ slab.data.length ≤ offset := by
        rw [List.length_drop] at size
        omega
      rw [if_neg short, ← size, List.take_length, Nat.sub_self]
      cases fuel <;> simp [readSlabs]
  | @cross block offset next final slab rest here room full link later ih =>
    have below := rising.inside block slab here
    have after := rising.later block slab here next link
    obtain ⟨fuel, rfl⟩ : ∃ less, fuel = less + 1 := ⟨fuel - 1, by omega⟩
    have length : (slab.data.drop offset ++ rest).length =
        capacity - offset - 1 + rest.length + 1 := by
      rw [List.length_append, List.length_drop, full]
      omega
    have taken : (slab.data.drop offset).take (capacity - offset - 1 + rest.length + 1) =
        slab.data.drop offset := by
      apply List.take_of_length_le
      rw [List.length_drop, full]
      omega
    have left : capacity - offset - 1 + rest.length + 1 - (slab.data.drop offset).length =
        rest.length := by
      rw [List.length_drop, full]
      omega
    rw [length, readSlabs, here]
    dsimp only
    rw [if_neg (by rw [full]; exact not_le.mpr room), taken, left, link, ih (by omega)]
    rfl

end

end TurboHybrid.Library
