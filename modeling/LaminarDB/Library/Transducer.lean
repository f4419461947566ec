import Mathlib

/-!
# Transducers

A machine that reads inputs one after the other and writes some outputs for each. What
it writes for a stream does not depend on how the stream is cut.
-/

namespace LaminarDB.Library

structure Transducer (State Input Output : Type) where
  step : State → Input → State × List Output

namespace Transducer

variable {State Input Output : Type} (machine : Transducer State Input Output)

def after (state : State) (inputs : List Input) : State :=
  inputs.foldl (fun state input => (machine.step state input).1) state

def outputs : State → List Input → List Output
  | _, [] => []
  | state, input :: inputs =>
    (machine.step state input).2 ++ outputs (machine.step state input).1 inputs

variable {machine} (state : State)

theorem after_append (first second : List Input) :
    machine.after state (first ++ second) = machine.after (machine.after state first) second :=
  List.foldl_append

theorem outputs_append {first second : List Input} :
    machine.outputs state (first ++ second) =
      machine.outputs state first ++ machine.outputs (machine.after state first) second := by
  induction first generalizing state with
  | nil => rfl
  | cons input first ih =>
    simp only [List.cons_append, outputs, after, List.foldl_cons, List.append_assoc]
    exact congrArg (_ ++ ·) (ih _)

theorem outputs_mono {first second : List Input} (part : first <+: second) :
    machine.outputs state first <+: machine.outputs state second := by
  obtain ⟨rest, rfl⟩ := part
  exact ⟨_, (outputs_append state).symm⟩

end Transducer

end LaminarDB.Library
