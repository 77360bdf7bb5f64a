import Mathlib.Init
import Mathlib.Data.List.Infix

set_option autoImplicit false

/- Runs of a machine whose step is a function of the state and of an event.
Whatever the environment may choose (which call comes next, which access fails)
is part of the event, so every interleaving is a list of events. -/
namespace Runs

variable {State Event : Type*}

/-- The state after the events of a list, in order. -/
def run (step : State → Event → State) (start : State) (events : List Event) : State :=
  events.foldl step start

theorem run_append (step : State → Event → State) (start : State) (done rest : List Event) :
    run step start (done ++ rest) = run step (run step start done) rest :=
  List.foldl_append

/-- Every step of the run from `start` over `events` meets `allowed`, which may
look at the state before the step. -/
def Follows (step : State → Event → State) (allowed : State → Event → Prop) :
    State → List Event → Prop
  | _, [] => True
  | start, event :: rest => allowed start event ∧ Follows step allowed (step start event) rest

instance decidableFollows (step : State → Event → State) (allowed : State → Event → Prop)
    [∀ state event, Decidable (allowed state event)] :
    (start : State) → (events : List Event) → Decidable (Follows step allowed start events)
  | _, [] => isTrue trivial
  | start, event :: rest =>
      have := decidableFollows step allowed (step start event) rest
      inferInstanceAs (Decidable (_ ∧ _))

/-- The states that runs from `start` reach through allowed steps. -/
inductive Reached (step : State → Event → State) (allowed : State → Event → Prop)
    (start : State) : State → Prop
  | start : Reached step allowed start start
  | next {state : State} (event : Event) (before : Reached step allowed start state)
      (meets : allowed state event) : Reached step allowed start (step state event)

/-- What one allowed step preserves holds in every state reached. -/
theorem Reached.invariant {step : State → Event → State} {allowed : State → Event → Prop}
    {start state : State} {holds : State → Prop} (reached : Reached step allowed start state)
    (initially : holds start)
    (preserved : ∀ before event, holds before → allowed before event →
      holds (step before event)) : holds state := by
  induction reached with
  | start => exact initially
  | next event _ meets ih => exact preserved _ event ih meets

theorem Reached.trans {step : State → Event → State} {allowed : State → Event → Prop}
    {start middle state : State} (first : Reached step allowed start middle)
    (second : Reached step allowed middle state) : Reached step allowed start state := by
  induction second with
  | start => exact first
  | next event _ meets ih => exact .next event ih meets

/-- A list of events whose steps are all allowed reaches the state it ends in. -/
theorem Follows.reached {step : State → Event → State} {allowed : State → Event → Prop}
    {start : State} {events : List Event} (follows : Follows step allowed start events) :
    Reached step allowed start (run step start events) := by
  induction events generalizing start with
  | nil => exact .start
  | cons event rest ih =>
      have first : Reached step allowed start (step start event) := .next event .start follows.1
      exact first.trans (ih follows.2)

/-- Nothing is ruled out. -/
theorem follows_true (step : State → Event → State) (start : State) (events : List Event) :
    Follows step (fun _ _ => True) start events := by
  induction events generalizing start with
  | nil => trivial
  | cons event rest ih => exact ⟨trivial, ih _⟩

/-- The parts of an allowed run are allowed, the second one from where the first ends. -/
theorem follows_append_iff {step : State → Event → State} {allowed : State → Event → Prop}
    (start : State) (done rest : List Event) :
    Follows step allowed start (done ++ rest) ↔
      Follows step allowed start done ∧ Follows step allowed (run step start done) rest := by
  induction done generalizing start with
  | nil => simp [Follows, run]
  | cons event later ih =>
      have next : run step start (event :: later) = run step (step start event) later := rfl
      rw [List.cons_append, Follows, Follows, ih, next, and_assoc]

/-- A run is allowed when each of its steps is, in the state the steps before it lead to. -/
theorem follows_iff_forall {step : State → Event → State} {allowed : State → Event → Prop}
    (start : State) (events : List Event) :
    Follows step allowed start events ↔
      ∀ done event, done ++ [event] <+: events → allowed (run step start done) event := by
  induction events generalizing start with
  | nil =>
      refine iff_of_true trivial ?_
      intro done event part
      exact absurd (List.prefix_nil.mp part) (by simp)
  | cons first rest ih =>
      rw [Follows, ih]
      constructor
      · rintro ⟨meets, later⟩ done event part
        cases done with
        | nil => exact (List.cons_prefix_cons.mp part).1 ▸ meets
        | cons head tail =>
            obtain ⟨same, inRest⟩ := List.cons_prefix_cons.mp part
            exact same ▸ later tail event inRest
      · intro every
        refine ⟨every [] first ⟨rest, rfl⟩, ?_⟩
        intro done event part
        exact every (first :: done) event (List.cons_prefix_cons.mpr ⟨rfl, part⟩)

/-- The state after some of the steps of an allowed run is reached by it. -/
theorem Follows.take_part {step : State → Event → State} {allowed : State → Event → Prop}
    {start : State} {done events : List Event} (follows : Follows step allowed start events)
    (part : done <+: events) : Follows step allowed start done := by
  rw [follows_iff_forall] at follows ⊢
  exact fun earlier event shorter => follows earlier event (shorter.trans part)

/-- Where the allowed steps keep an invariant, and one step from a state that has it leads to
a property exactly when it is allowed, all states along a run have the property exactly when
all its steps are allowed. -/
theorem forall_prefix_iff_of_invariant {step : State → Event → State}
    {allowed : State → Event → Prop} {invariant holds : State → Prop}
    (known : ∀ state, invariant state → holds state)
    (kept : ∀ state event, invariant state → allowed state event → invariant (step state event))
    (exact_ : ∀ state event, invariant state → (holds (step state event) ↔ allowed state event))
    {start : State} (initially : invariant start) (events : List Event) :
    (∀ done, done <+: events → holds (run step start done)) ↔
      Follows step allowed start events := by
  induction events generalizing start with
  | nil =>
      constructor
      · exact fun _ => trivial
      · intro _ done part
        rw [List.prefix_nil.mp part]
        exact known start initially
  | cons event rest ih =>
      constructor
      · intro every
        have next : holds (step start event) := every [event] ⟨rest, rfl⟩
        have meets := (exact_ start event initially).mp next
        refine ⟨meets, (ih (kept start event initially meets)).mp ?_⟩
        intro done part
        exact every (event :: done) (List.cons_prefix_cons.mpr ⟨rfl, part⟩)
      · rintro ⟨meets, follows⟩ done part
        cases done with
        | nil => exact known start initially
        | cons first later =>
            obtain ⟨same, inRest⟩ := List.cons_prefix_cons.mp part
            rw [same]
            exact (ih (kept start event initially meets)).mpr follows later inRest

/-- Where one step keeps a property exactly when it is allowed, all states along a run
have it exactly when all its steps are allowed. -/
theorem forall_prefix_iff {step : State → Event → State} {allowed : State → Event → Prop}
    (holds : State → Prop)
    (exact_ : ∀ state event, holds state → (holds (step state event) ↔ allowed state event))
    {start : State} (initially : holds start) (events : List Event) :
    (∀ done, done <+: events → holds (run step start done)) ↔
      Follows step allowed start events :=
  forall_prefix_iff_of_invariant (fun _ held => held)
    (fun state event held => (exact_ state event held).mpr) exact_ initially events

end Runs
