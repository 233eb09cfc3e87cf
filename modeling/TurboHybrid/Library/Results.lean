/-
**Computations that may fail, over lists.**

* `bind_ok`: the two halves of a computation that succeeds;
* `foldlM_congr`: a fold with another step that does the same on the items;
* `foldlM_invariant`: what every step that succeeds preserves;
* `foldlM_grows`: a fold whose steps add to a log;
* `mapM_ok`: a map whose every step succeeds;
* `mapM_toOption`: a map that fails somewhere;
* `Yields`: what a computation returns, and what its errors are, with the rules for its parts.
-/
import Mathlib.Data.List.Forall2
import Mathlib.Tactic.Common

namespace TurboHybrid.Library

variable {Error State Item Value : Type}

theorem bind_ok {first : Except Error Value} {next : Value → Except Error State} {final : State}
    (done : first >>= next = .ok final) : ∃ value, first = .ok value ∧ next value = .ok final := by
  cases first with
  | error error => cases done
  | ok value => exact ⟨value, rfl, done⟩

theorem bind_ok_iff {first : Except Error Value} {next : Value → Except Error State}
    {final : State} :
    first >>= next = .ok final ↔ ∃ value, first = .ok value ∧ next value = .ok final := by
  refine ⟨bind_ok, ?_⟩
  rintro ⟨value, rfl, done⟩
  exact done

theorem map_ok {first : Except Error Value} {next : Value → State} {final : State}
    (done : next <$> first = .ok final) : ∃ value, first = .ok value ∧ next value = final := by
  cases first with
  | error error => cases done
  | ok value => exact ⟨value, rfl, Except.ok.inj done⟩

theorem foldlM_congr {step step' : State → Item → Except Error State} {items : List Item}
    (same : ∀ state, ∀ item ∈ items, step state item = step' state item) (state : State) :
    items.foldlM step state = items.foldlM step' state := by
  induction items generalizing state with
  | nil => rfl
  | cons item rest ih =>
    rw [List.foldlM_cons, List.foldlM_cons, same state item List.mem_cons_self]
    exact congrArg _ (funext fun next => ih (fun state item member =>
      same state item (.tail _ member)) next)

/-- **The rule for folds**: what the steps preserve, on the items already taken, holds at the end. -/
theorem foldlM_invariant {step : State → Item → Except Error State}
    (invariant : List Item → State → Prop)
    (preserved : ∀ {taken state item next}, invariant taken state → step state item = .ok next →
      invariant (taken ++ [item]) next) {items taken : List Item} {state final : State}
    (initially : invariant taken state) (done : items.foldlM step state = .ok final) :
    invariant (taken ++ items) final := by
  induction items generalizing taken state with
  | nil =>
    rw [List.append_nil, ← Except.ok.inj done]
    exact initially
  | cons item rest ih =>
    rw [List.foldlM_cons] at done
    obtain ⟨next, stepped, later⟩ := bind_ok done
    have result := ih (preserved initially stepped) later
    rwa [List.append_assoc] at result

/-- **The rule for folds that grow a log**: each step adds to the log what it has of its item. -/
theorem foldlM_grows {Entry : Type} {step : State → Item → Except Error State}
    (state : List Entry → State) (added : Item → List Entry) {items : List Item}
    (grows : ∀ item ∈ items, ∀ taken,
      step (state taken) item = .ok (state (taken ++ added item))) (taken : List Entry) :
    items.foldlM step (state taken) = .ok (state (taken ++ items.flatMap added)) := by
  induction items generalizing taken with
  | nil => rw [List.flatMap_nil, List.append_nil]; rfl
  | cons item rest ih =>
    rw [List.foldlM_cons, grows item List.mem_cons_self, List.flatMap_cons, ← List.append_assoc]
    exact ih (fun item member => grows item (.tail _ member)) _

theorem mapM_ok {read : Item → Except Error Value} {value : Item → Value} {items : List Item}
    (reads : ∀ item ∈ items, read item = .ok (value item)) :
    items.mapM read = .ok (items.map value) := by
  induction items with
  | nil => rfl
  | cons item rest ih =>
    rw [List.mapM_cons, reads item List.mem_cons_self,
      ih fun item member => reads item (.tail _ member)]
    rfl

theorem mapM_congr {read read' : Item → Except Error Value} {items : List Item}
    (same : ∀ item ∈ items, read' item = read item) : items.mapM read' = items.mapM read := by
  induction items with
  | nil => rfl
  | cons item rest ih =>
    rw [List.mapM_cons, List.mapM_cons, same item List.mem_cons_self,
      ih fun item member => same item (.tail _ member)]

theorem mapM_toOption (read : Item → Except Error Value) (items : List Item) :
    (items.mapM read).toOption = items.mapM fun item => (read item).toOption := by
  induction items with
  | nil => rfl
  | cons item rest ih =>
    rw [List.mapM_cons, List.mapM_cons, ← ih]
    cases read item with
    | error error => rfl
    | ok value => cases rest.mapM read <;> rfl

theorem mapM_append_option (read : Item → Option Value) (front back : List Item) :
    (front ++ back).mapM read =
      (front.mapM read).bind fun values => (back.mapM read).map fun later => values ++ later := by
  induction front with
  | nil =>
    show back.mapM read = (back.mapM read).map fun later => [] ++ later
    cases back.mapM read <;> rfl
  | cons item rest ih =>
    rw [List.cons_append, List.mapM_cons, List.mapM_cons, ih]
    cases read item with
    | none => rfl
    | some value => cases rest.mapM read <;> cases back.mapM read <;> rfl

theorem mapM_eq_none_of_mem {read : Item → Option Value} {items : List Item} {item : Item}
    (member : item ∈ items) (nothing : read item = none) : items.mapM read = none := by
  induction items with
  | nil => cases member
  | cons first rest ih =>
    rw [List.mapM_cons]
    rcases List.mem_cons.mp member with rfl | later
    · rw [nothing]
      rfl
    · rw [ih later]
      cases read first <;> rfl

theorem mapM_option_congr {read read' : Item → Option Value} {items : List Item}
    (same : ∀ item ∈ items, read' item = read item) : items.mapM read' = items.mapM read := by
  induction items with
  | nil => rfl
  | cons item rest ih =>
    rw [List.mapM_cons, List.mapM_cons, same item List.mem_cons_self,
      ih fun item member => same item (.tail _ member)]

theorem exists_none_of_mapM {read : Item → Option Value} {items : List Item}
    (nothing : items.mapM read = none) : ∃ item ∈ items, read item = none := by
  by_contra all
  have values : ∀ item ∈ items, ∃ value, read item = some value := fun item member =>
    Option.ne_none_iff_exists'.mp fun missing => all ⟨item, member, missing⟩
  clear all
  induction items with
  | nil => cases nothing
  | cons item rest ih =>
    obtain ⟨value, found⟩ := values item List.mem_cons_self
    rw [List.mapM_cons, found] at nothing
    cases later : rest.mapM read with
    | none => exact ih later fun item member => values item (.tail _ member)
    | some read' =>
      rw [later] at nothing
      cases nothing

theorem mapM_option_some {read : Item → Option Value} {items : List Item} {values : List Value}
    (default : Value) (done : items.mapM read = some values) :
    values = items.map (fun item => (read item).getD default) ∧
      ∀ item ∈ items, read item = some ((read item).getD default) := by
  have each : ∀ item ∈ items, read item = some ((read item).getD default) := by
    intro item member
    cases found : read item with
    | none =>
      rw [mapM_eq_none_of_mem member found] at done
      cases done
    | some value => rfl
  refine ⟨?_, each⟩
  clear each
  induction items generalizing values with
  | nil => exact (Option.some.inj done).symm
  | cons item rest ih =>
    rw [List.mapM_cons] at done
    cases found : read item with
    | none =>
      rw [found] at done
      cases done
    | some value =>
      rw [found] at done
      cases later : rest.mapM read with
      | none =>
        rw [later] at done
        cases done
      | some others =>
        rw [later] at done
        obtain rfl := Option.some.inj done
        rw [List.map_cons, ← ih later, found]
        rfl

/-- A computation returns a value of one kind, or fails with an error of another. -/
def Yields (fails : Error → Prop) (returns : Value → Prop) : Except Error Value → Prop
  | .ok value => returns value
  | .error error => fails error

section Yields

variable {fails : Error → Prop} {returns : Value → Prop} {computed : Except Error Value}

theorem Yields.imp {fails' : Error → Prop} {returns' : Value → Prop}
    (yields : Yields fails returns computed) (weaker : ∀ error, fails error → fails' error)
    (weaker' : ∀ value, returns value → returns' value) : Yields fails' returns' computed := by
  cases computed with
  | ok value => exact weaker' value yields
  | error error => exact weaker error yields

theorem Yields.of_ok {value : Value} (yields : Yields fails returns computed)
    (done : computed = .ok value) : returns value := by
  rwa [done] at yields

theorem Yields.ok {value : Value} (returned : returns value) :
    Yields fails returns (.ok value) := returned

/-- **The rule for sequences**: the second part starts from what the first returns. -/
theorem Yields.bind {later : Value → Except Error State} {ends : State → Prop}
    (yields : Yields fails returns computed)
    (continues : ∀ value, returns value → Yields fails ends (later value)) :
    Yields fails ends (computed >>= later) := by
  cases computed with
  | ok value => exact continues value yields
  | error error => exact yields

/-- **The rule for folds** with errors: what every step keeps holds at the end. -/
theorem Yields.foldlM {step : State → Item → Except Error State} (invariant : State → Prop)
    {items : List Item} {state : State} (initially : invariant state)
    (steps : ∀ state, ∀ item ∈ items, invariant state → Yields fails invariant (step state item)) :
    Yields fails invariant (items.foldlM step state) := by
  induction items generalizing state with
  | nil => exact initially
  | cons item rest ih =>
    rw [List.foldlM_cons]
    refine Yields.bind (steps state item List.mem_cons_self initially) fun next held => ?_
    exact ih held fun state item member => steps state item (.tail _ member)

theorem Yields.foldlM_taken {step : State → Item → Except Error State}
    (invariant : List Item → State → Prop) {items taken : List Item} {state : State}
    (initially : invariant taken state)
    (steps : ∀ taken state, ∀ item ∈ items, invariant taken state →
      Yields fails (invariant (taken ++ [item])) (step state item)) :
    Yields fails (invariant (taken ++ items)) (items.foldlM step state) := by
  induction items generalizing taken state with
  | nil =>
    rw [List.append_nil]
    exact initially
  | cons item rest ih =>
    rw [List.foldlM_cons]
    refine Yields.bind (steps taken state item List.mem_cons_self initially) fun next held => ?_
    have result := ih held fun taken state item member => steps taken state item (.tail _ member)
    rwa [List.append_assoc] at result

theorem Yields.mapM {read : Item → Except Error Value} {returns : Item → Value → Prop}
    {items : List Item} (each : ∀ item ∈ items, Yields fails (returns item) (read item)) :
    Yields fails (List.Forall₂ returns items) (items.mapM read) := by
  induction items with
  | nil => exact .nil
  | cons item rest ih =>
    rw [List.mapM_cons]
    refine Yields.bind (each item List.mem_cons_self) fun value first => ?_
    refine Yields.bind (ih fun item member => each item (.tail _ member)) fun values others => ?_
    exact .cons first others

end Yields

end TurboHybrid.Library
