import Mathlib

/-!
# Labelled transition systems

A system has a set of initial states and a partial step function. A label
names the component that moves and the choices its environment makes, so a
list of labels is one interleaving.

`Reaches` restricts the steps of a run to those that meet a condition on the
state before the step. The unrestricted system is the case `fun _ _ => True`.
-/

namespace LaminarDB.Library

universe u v

structure TransitionSystem (State : Type u) (Label : Type v) where
  initial : State → Prop
  /-- The state after a label; `none` when the label is not enabled. -/
  step : State → Label → Option State

namespace TransitionSystem

variable {State : Type u} {Label : Type v}

/-- States reached from an initial state by steps that all meet `admits`. -/
inductive Reaches (system : TransitionSystem State Label)
    (admits : State → Label → Prop) : State → Prop where
  | initial {state} :
      system.initial state → Reaches system admits state
  | step {state label next} :
      Reaches system admits state →
      admits state label →
      system.step state label = some next →
      Reaches system admits next

def run (system : TransitionSystem State Label) : State → List Label → Option State
  | state, [] => some state
  | state, label :: labels =>
    (system.step state label).bind fun next => system.run next labels

/-- Check that a list of labels is enabled and that every step is admitted. -/
def checkRun (system : TransitionSystem State Label)
    (admits : State → Label → Bool) : State → List Label → Bool
  | _, [] => true
  | state, label :: labels =>
    admits state label &&
      match system.step state label with
      | none => false
      | some next => system.checkRun admits next labels

variable {system : TransitionSystem State Label} {admits : State → Label → Prop}

/-- The invariant rule: what holds initially and is kept by every admitted
step holds in every state reached. -/
theorem Reaches.invariant {invariant : State → Prop}
    (initially : ∀ state, system.initial state → invariant state)
    (kept : ∀ state label next, invariant state → admits state label →
      system.step state label = some next → invariant next) {state : State}
    (reached : system.Reaches admits state) : invariant state := by
  induction reached with
  | initial started => exact initially _ started
  | step _ admitted stepped ih =>
    exact kept _ _ _ ih admitted stepped

theorem Reaches.next {state next : State} (reached : system.Reaches admits state) (label : Label)
    (admitted : admits state label) (stepped : system.step state label = some next) :
    system.Reaches admits next :=
  .step reached admitted stepped

variable {labels : List Label}

theorem Reaches.of_run (all : ∀ state label, admits state label)
    {state last : State} (reached : system.Reaches admits state)
    (ran : system.run state labels = some last) : system.Reaches admits last := by
  induction labels generalizing state with
  | nil =>
    cases ran
    exact reached
  | cons label labels ih =>
    obtain ⟨next, stepped, ranOn⟩ := Option.bind_eq_some_iff.mp ran
    exact ih (.step reached (all state label) stepped) ranOn

theorem Reaches.of_checkRun {decides : State → Label → Bool}
    (sound : ∀ state label, decides state label = true → admits state label)
    {state default : State} (reached : system.Reaches admits state)
    (checked : system.checkRun decides state labels = true) :
    system.Reaches admits ((system.run state labels).getD default) := by
  induction labels generalizing state with
  | nil => exact reached
  | cons label labels ih =>
    simp only [checkRun, Bool.and_eq_true] at checked
    cases stepped : system.step state label with
    | none => simp [stepped] at checked
    | some next =>
      simp only [stepped] at checked
      simp only [run, stepped, Option.bind_some]
      exact ih (.step reached (sound _ _ checked.1) stepped) checked.2

end TransitionSystem

end LaminarDB.Library
