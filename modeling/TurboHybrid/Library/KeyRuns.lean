/-
**An index of the runs of a log.**

Where the entries of a key stand together in a log of keyed values, two numbers per key find them
again: the place of the first and how many there are.

* `Indexes.start`, `Indexes.extend`: an entry at the end of the log keeps the index right when it
  is the first of its key, or stands right behind the run of its key.
-/
import TurboHybrid.Library.KeyedLog
import Mathlib.Logic.Function.Basic

namespace TurboHybrid.Library

variable {α : Type*}

/-- For every key, `first` is the place of its run in the log and `count` the length. -/
structure Indexes (first : Nat → Option Nat) (count : Nat → Nat) (log : List (Nat × α)) :
    Prop where
  absent : ∀ key, first key = none → count key = 0 ∧ valuesAt log key = []
  run : ∀ key place, first key = some place → place + count key ≤ log.length ∧
    ((log.drop place).take (count key)).map Prod.snd = valuesAt log key

theorem indexes_empty : Indexes (fun _ => none) (fun _ => 0) ([] : List (Nat × α)) where
  absent key _ := ⟨rfl, rfl⟩
  run key place found := by cases found

namespace Indexes

variable {first : Nat → Option Nat} {count : Nat → Nat} {log : List (Nat × α)}
  {key other : Nat} {value : α}

theorem valuesAt_other (differs : other ≠ key) :
    valuesAt (log ++ [(key, value)]) other = valuesAt log other := by
  rw [valuesAt_append, valuesAt_cons, if_neg (Ne.symm differs), valuesAt_nil, List.append_nil]

theorem valuesAt_same : valuesAt (log ++ [(key, value)]) key = valuesAt log key ++ [value] := by
  rw [valuesAt_append, valuesAt_cons, if_pos rfl, valuesAt_nil]

theorem run_append {place : Nat} {entry : Nat × α} (inside : place + count other ≤ log.length) :
    ((log ++ [entry]).drop place).take (count other) = (log.drop place).take (count other) := by
  rw [List.drop_append_of_le_length (by omega),
    List.take_append_of_le_length (by rw [List.length_drop]; omega)]

theorem start (indexes : Indexes first count log) (new : first key = none) :
    Indexes (Function.update first key (some log.length))
      (Function.update count key (count key + 1)) (log ++ [(key, value)]) where
  absent other missing := by
    by_cases same : other = key
    · rw [same, Function.update_self] at missing
      cases missing
    · rw [Function.update_of_ne same] at missing ⊢
      rw [valuesAt_other same]
      exact indexes.absent other missing
  run other place found := by
    by_cases same : other = key
    · obtain ⟨zero, nil⟩ := indexes.absent key new
      rw [same, Function.update_self] at found ⊢
      obtain rfl := Option.some.inj found
      rw [zero, valuesAt_same, nil, List.drop_left]
      exact ⟨by simp, rfl⟩
    · rw [Function.update_of_ne same] at found ⊢
      obtain ⟨inside, values⟩ := indexes.run other place found
      rw [valuesAt_other same, run_append inside]
      exact ⟨by rw [List.length_append]; omega, values⟩

theorem extend (indexes : Indexes first count log) {place : Nat} (found : first key = some place)
    (last : place + count key = log.length) :
    Indexes first (Function.update count key (count key + 1)) (log ++ [(key, value)]) where
  absent other missing := by
    have differs : other ≠ key := by
      rintro rfl
      rw [found] at missing
      cases missing
    rw [Function.update_of_ne differs, valuesAt_other differs]
    exact indexes.absent other missing
  run other otherPlace otherFound := by
    obtain ⟨inside, values⟩ := indexes.run other otherPlace otherFound
    by_cases same : other = key
    · subst same
      obtain rfl : place = otherPlace := Option.some.inj (found.symm.trans otherFound)
      have whole : (log.drop place).take (count other) = log.drop place :=
        List.take_of_length_le (by rw [List.length_drop]; omega)
      rw [whole] at values
      rw [Function.update_self, valuesAt_same, ← values,
        List.drop_append_of_le_length (by omega),
        List.take_of_length_le (by rw [List.length_append, List.length_drop]; simp; omega),
        List.map_append]
      exact ⟨by rw [List.length_append]; simp; omega, rfl⟩
    · rw [Function.update_of_ne same, valuesAt_other same, run_append inside]
      exact ⟨by rw [List.length_append]; omega, values⟩

end Indexes

end TurboHybrid.Library
