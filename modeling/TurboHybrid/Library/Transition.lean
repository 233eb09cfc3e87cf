/-
**Runs of a transition system.**

A step function says what an action does in a state and where it is not enabled.

* `ReachedBy`: the states reached by steps that each meet a condition;
* `ReachedBy.invariant`: what every such step preserves holds of every state reached;
* `reached_of_run`, `reachedBy_of_runMeeting`: the states of a run that is computed.
-/
import Mathlib.Data.Option.Basic
import Mathlib.Tactic.Common

namespace TurboHybrid.Library

variable {State Action : Type*} {step : State → Action → Option State}

/-- The states reached from a start by steps that each meet a condition on the state before it and
the action. -/
inductive ReachedBy (step : State → Action → Option State) (meets : State → Action → Prop)
    (start : State) : State → Prop
  | start : ReachedBy step meets start start
  | step {state next : State} {action : Action} (reached : ReachedBy step meets start state)
      (met : meets state action) (stepped : step state action = some next) :
      ReachedBy step meets start next

abbrev Reached (step : State → Action → Option State) (start : State) : State → Prop :=
  ReachedBy step (fun _ _ => True) start

variable {meets : State → Action → Prop} {start state : State}

/-- **The rule of invariants**: a property of the start that steps preserve holds wherever they
lead. -/
theorem ReachedBy.invariant {invariant : State → Prop} (reached : ReachedBy step meets start state)
    (initially : invariant start)
    (preserved : ∀ {state next action}, invariant state → meets state action →
      step state action = some next → invariant next) : invariant state := by
  induction reached with
  | start => exact initially
  | step _ met stepped ih => exact preserved ih met stepped

/-- The state after a list of actions, where each is enabled. -/
def runActions (step : State → Action → Option State) : State → List Action → Option State
  | state, [] => some state
  | state, action :: rest => (step state action).bind fun next => runActions step next rest

theorem reachedBy_trans {middle : State} (before : ReachedBy step meets start middle)
    (after : ReachedBy step meets middle state) : ReachedBy step meets start state := by
  induction after with
  | start => exact before
  | step _ met stepped ih => exact .step ih met stepped

theorem reached_of_run {actions : List Action} {final : State}
    (ran : runActions step start actions = some final) : Reached step start final := by
  induction actions generalizing start with
  | nil =>
    obtain rfl := Option.some.inj ran
    exact .start
  | cons action rest ih =>
    obtain ⟨next, stepped, later⟩ := Option.bind_eq_some_iff.mp ran
    exact reachedBy_trans (.step .start trivial stepped) (ih later)

/-- The state after a list of actions, where each is enabled and meets the condition. -/
def runMeeting (step : State → Action → Option State) (meets : State → Action → Prop)
    [∀ state action, Decidable (meets state action)] : State → List Action → Option State
  | state, [] => some state
  | state, action :: rest =>
    if meets state action then
      (step state action).bind fun next => runMeeting step meets next rest
    else none

/-- The state such a list of actions leads to is reached by steps that meet the condition. -/
theorem reachedBy_of_runMeeting [∀ state action, Decidable (meets state action)]
    {actions : List Action} {final : State}
    (ran : runMeeting step meets start actions = some final) :
    ReachedBy step meets start final := by
  induction actions generalizing start with
  | nil =>
    obtain rfl := Option.some.inj ran
    exact .start
  | cons action rest ih =>
    rw [runMeeting] at ran
    split_ifs at ran with met
    obtain ⟨next, stepped, later⟩ := Option.bind_eq_some_iff.mp ran
    exact reachedBy_trans (.step .start met stepped) (ih later)

end TurboHybrid.Library
