import Mathlib.Init

set_option autoImplicit false

/- Programs that act on a shared state one step at a time, so that others may act between
two steps. A routine that is left alone runs to its end; that run is what the same
program does as a function. -/

inductive Routine (State Reply : Type) where
  | done (reply : Reply)
  /-- Acts on the state, and goes on by what it found there. -/
  | act (effect : State → State) (next : State → Routine State Reply)

namespace Routine

variable {State Reply Answer : Type}

/-- One step that acts and replies. -/
def perform (step : State → State × Reply) : Routine State Reply :=
  .act (fun state => (step state).1) fun state => .done (step state).2

/-- One step that only looks. -/
def ask (look : State → Reply) : Routine State Reply := .act id fun state => .done (look state)

/-- A routine, and another that goes on from its reply. -/
def bind : Routine State Reply → (Reply → Routine State Answer) → Routine State Answer
  | .done reply, rest => rest reply
  | .act effect next, rest => .act effect fun state => (next state).bind rest

/-- What a routine comes to when it is left alone. -/
def finish : Routine State Reply → State → State × Reply
  | .done reply, state => (state, reply)
  | .act effect next, state => (next state).finish (effect state)

@[simp] theorem finish_done (reply : Reply) (state : State) :
    (Routine.done reply).finish state = (state, reply) := rfl

@[simp] theorem finish_perform (step : State → State × Reply) (state : State) :
    (perform step).finish state = step state := rfl

@[simp] theorem finish_ask (look : State → Reply) (state : State) :
    (ask look).finish state = (state, look state) := rfl

@[simp] theorem finish_bind (first : Routine State Reply) (rest : Reply → Routine State Answer)
    (state : State) :
    (first.bind rest).finish state = (rest (first.finish state).2).finish (first.finish state).1 := by
  induction first generalizing state with
  | done reply => rfl
  | act effect next ih => exact ih state (effect state)

/-- What is left of a routine whose steps have met these states, one after the other. -/
def after : Routine State Reply → List State → Routine State Reply
  | routine, [] => routine
  | .done reply, _ => .done reply
  | .act _ next, state :: later => (next state).after later

@[simp] theorem after_nil (routine : Routine State Reply) : routine.after [] = routine := by
  cases routine <;> rfl

/-- One more step. -/
theorem after_concat {routine : Routine State Reply} {states : List State}
    {effect : State → State} {next : State → Routine State Reply}
    (left : routine.after states = .act effect next) (state : State) :
    routine.after (states ++ [state]) = next state := by
  induction states generalizing routine with
  | nil =>
      rw [after_nil] at left
      rw [left, List.nil_append, after, after_nil]
  | cons first rest ih =>
      cases routine with
      | done reply => contradiction
      | act effect next => exact ih left

/-- The states that a routine left alone passes through, the first and the last with them. A
crash leaves one of them behind. -/
def passes : Routine State Reply → State → List State
  | .done _, state => [state]
  | .act effect next, state => state :: (next state).passes (effect state)

@[simp] theorem passes_done (reply : Reply) (state : State) :
    (Routine.done reply).passes state = [state] := rfl

theorem finish_mem_passes (routine : Routine State Reply) (state : State) :
    (routine.finish state).1 ∈ routine.passes state := by
  induction routine generalizing state with
  | done reply => exact List.mem_cons_self
  | act effect next ih => exact List.mem_cons_of_mem _ (ih state (effect state))

/-- A routine followed by another passes through the states of the one and of the other. -/
theorem mem_passes_bind {first : Routine State Reply} {rest : Reply → Routine State Answer}
    {state met : State} (inside : met ∈ (first.bind rest).passes state) :
    met ∈ first.passes state ∨
      met ∈ (rest (first.finish state).2).passes (first.finish state).1 := by
  induction first generalizing state with
  | done reply => exact Or.inr inside
  | act effect next ih =>
      rcases List.mem_cons.mp inside with rfl | later
      · exact Or.inl List.mem_cons_self
      · rcases ih state later with before | after
        · exact Or.inl (List.mem_cons_of_mem _ before)
        · exact Or.inr after

end Routine
