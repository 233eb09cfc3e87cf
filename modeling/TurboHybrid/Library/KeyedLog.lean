/-
**Logs of keyed values.**

An array that is filled entry by entry is a log: the list of the entries written, in order, each
with its index. `numbered` is a log that fills an array from front to back, and `valuesAt` reads
off what was written under one index.

* `chunks`, `placed`: a list cut into chunks, and where each of them begins.
-/
import Mathlib.Data.List.Basic
import Mathlib.Data.List.Range
import Mathlib.Data.List.Perm.Basic

namespace TurboHybrid.Library

variable {α β : Type*}

/-! ### Numbered lists -/

/-- The entries of a list, numbered from `first`. -/
def numbered (first : Nat) : List α → List (Nat × α)
  | [] => []
  | entry :: rest => (first, entry) :: numbered (first + 1) rest

@[simp] theorem numbered_nil (first : Nat) : numbered first ([] : List α) = [] := rfl

@[simp] theorem numbered_cons (first : Nat) (entry : α) (rest : List α) :
    numbered first (entry :: rest) = (first, entry) :: numbered (first + 1) rest := rfl

/-! ### The values under a key -/

def valuesAt (log : List (Nat × α)) (key : Nat) : List α :=
  (log.filter fun entry => entry.1 = key).map Prod.snd

@[simp] theorem valuesAt_nil (key : Nat) : valuesAt ([] : List (Nat × α)) key = [] := rfl

@[simp] theorem valuesAt_append (front back : List (Nat × α)) (key : Nat) :
    valuesAt (front ++ back) key = valuesAt front key ++ valuesAt back key := by
  simp [valuesAt]

theorem valuesAt_cons (entry : Nat × α) (rest : List (Nat × α)) (key : Nat) :
    valuesAt (entry :: rest) key =
      if entry.1 = key then entry.2 :: valuesAt rest key else valuesAt rest key := by
  unfold valuesAt
  by_cases same : entry.1 = key <;> simp [same]

theorem mem_valuesAt {log : List (Nat × α)} {key : Nat} {value : α} :
    value ∈ valuesAt log key ↔ (key, value) ∈ log := by
  unfold valuesAt
  simp only [List.mem_map, List.mem_filter, decide_eq_true_eq, Prod.exists]
  constructor
  · rintro ⟨found, other, ⟨member, rfl⟩, rfl⟩
    exact member
  · intro member
    exact ⟨key, value, ⟨member, rfl⟩, rfl⟩

/-! ### Chunks -/

/-- A list cut into chunks of `size` entries, the last one shorter. -/
def chunksOf (size : Nat) : Nat → List α → List (List α)
  | 0, _ => []
  | fuel + 1, entries =>
      if entries.isEmpty then []
      else entries.take size :: chunksOf size fuel (entries.drop size)

def chunks (size : Nat) (entries : List α) : List (List α) := chunksOf size entries.length entries

/-- Chunks with the number of entries in front of each. -/
def placed (start : Nat) : List (List α) → List (Nat × List α)
  | [] => []
  | chunk :: rest => (start, chunk) :: placed (start + chunk.length) rest

@[simp] theorem placed_cons (start : Nat) (chunk : List α) (rest : List (List α)) :
    placed start (chunk :: rest) = (start, chunk) :: placed (start + chunk.length) rest := rfl

end TurboHybrid.Library
