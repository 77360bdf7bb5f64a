import Mathlib.Data.List.Basic

set_option autoImplicit false

/- Machines that read one symbol at a time, write what they have to, and may refuse. -/
namespace Transducers

structure Transducer (State Symbol Output : Type) where
  step : State → Symbol → Option (List Output × State)

namespace Transducer

variable {State Symbol Output : Type} (machine : Transducer State Symbol Output)

/-- All that is written, and the state the machine ends in. -/
def run : State → List Symbol → Option (List Output × State)
  | state, [] => some ([], state)
  | state, symbol :: rest =>
      match machine.step state symbol with
      | none => none
      | some (written, next) =>
          match run next rest with
          | none => none
          | some (later, last) => some (written ++ later, last)

/-- Over the symbols the machine goes from one state to another. -/
def Reads (state : State) (symbols : List Symbol) (written : List Output) (next : State) : Prop :=
  machine.run state symbols = some (written, next)

instance [DecidableEq State] [DecidableEq Output] (state : State) (symbols : List Symbol)
    (written : List Output) (next : State) :
    Decidable (machine.Reads state symbols written next) :=
  inferInstanceAs (Decidable (_ = _))

variable {machine}

theorem Reads.nil (state : State) : machine.Reads state [] [] state := rfl

theorem Reads.cons {state next last : State} {symbol : Symbol} {rest : List Symbol}
    {written later : List Output} (first : machine.step state symbol = some (written, next))
    (others : machine.Reads next rest later last) :
    machine.Reads state (symbol :: rest) (written ++ later) last := by
  unfold Reads at others ⊢
  simp only [run, first, others]

theorem Reads.append {state next last : State} {symbols others : List Symbol}
    {written later : List Output} (before : machine.Reads state symbols written next)
    (after : machine.Reads next others later last) :
    machine.Reads state (symbols ++ others) (written ++ later) last := by
  induction symbols generalizing state written with
  | nil =>
      cases before
      exact after
  | cons symbol rest ih =>
      unfold Reads run at before
      cases first : machine.step state symbol with
      | none =>
          rw [first] at before
          cases before
      | some answer =>
          obtain ⟨out, middle⟩ := answer
          cases onwards : machine.run middle rest with
          | none =>
              simp only [first, onwards] at before
              cases before
          | some result =>
              obtain ⟨more, stop⟩ := result
              simp only [first, onwards] at before
              cases before
              rw [List.cons_append, List.append_assoc]
              exact .cons first (ih onwards)

end Transducer

end Transducers
