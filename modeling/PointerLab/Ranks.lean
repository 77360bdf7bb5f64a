import PointerLab.Runs

set_option autoImplicit false

/- Progress of one party in a run that others take part in. Its own steps bring a rank down
until a goal is reached, the steps of the others do not raise it, and the goal is kept. -/
namespace Runs

variable {State Event : Type*} (step : State → Event → State) (own : State → Event → Bool)

/-- How many steps of a run are the party's own. -/
def taken : State → List Event → Nat
  | _, [] => 0
  | state, event :: rest => (own state event).toNat + taken (step state event) rest

structure Ranked (allowed : State → Event → Prop) (holds goal : State → Prop)
    (rank : State → Nat) : Prop where
  carries : ∀ {state event}, holds state → allowed state event → holds (step state event)
  kept : ∀ {state event}, holds state → goal state → allowed state event →
    goal (step state event)
  falls : ∀ {state event}, holds state → ¬ goal state → allowed state event →
    own state event = true → goal (step state event) ∨ rank (step state event) < rank state
  rests : ∀ {state event}, holds state → ¬ goal state → allowed state event →
    own state event = false → goal (step state event) ∨ rank (step state event) ≤ rank state

variable {step own} {allowed : State → Event → Prop} {holds goal : State → Prop}
  {rank : State → Nat}

theorem follows_of_forall (step : State → Event → State) {allowed : Event → Prop}
    {events : List Event} (start : State) (every : ∀ event ∈ events, allowed event) :
    Follows step (fun _ event => allowed event) start events := by
  induction events generalizing start with
  | nil => trivial
  | cons event rest ih =>
      rw [List.forall_mem_cons] at every
      exact ⟨every.1, ih _ every.2⟩

theorem Ranked.goal_run (ranked : Ranked step own allowed holds goal rank) {state : State}
    {events : List Event} (start : holds state) (reached : goal state)
    (follows : Follows step allowed state events) : goal (run step state events) := by
  have both := @Reached.invariant _ _ _ _ _ _ (fun state => holds state ∧ goal state)
    follows.reached ⟨start, reached⟩ fun _ _ before meets =>
      ⟨ranked.carries before.1 meets, ranked.kept before.1 before.2 meets⟩
  exact both.2

/-- A party that takes more steps than the rank it starts from has reached its goal. -/
theorem Ranked.goal_of_taken (ranked : Ranked step own allowed holds goal rank)
    {state : State} {events : List Event} (start : holds state)
    (follows : Follows step allowed state events)
    (enough : rank state < taken step own state events) : goal (run step state events) := by
  induction events generalizing state with
  | nil => exact absurd enough (Nat.not_lt_zero _)
  | cons event rest ih =>
      obtain ⟨meets, later⟩ := follows
      have after := ranked.carries start meets
      show goal (run step (step state event) rest)
      by_cases reached : goal state
      · exact ranked.goal_run after (ranked.kept start reached meets) later
      · rw [taken] at enough
        cases mine : own state event with
        | true =>
            rw [mine, Bool.toNat_true] at enough
            rcases ranked.falls start reached meets mine with found | lower
            · exact ranked.goal_run after found later
            · exact ih after later (by omega)
        | false =>
            rw [mine, Bool.toNat_false] at enough
            rcases ranked.rests start reached meets mine with found | same
            · exact ranked.goal_run after found later
            · exact ih after later (by omega)

end Runs
