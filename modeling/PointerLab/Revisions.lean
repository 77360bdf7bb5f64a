import Mathlib.Algebra.BigOperators.Group.List.Basic
import Mathlib.Algebra.GroupWithZero.Nat
import PointerLab.Runs

set_option autoImplicit false

/- Copies that are taken again when a counter has moved. The counter wraps, and reading it and
taking the copy are two steps, with others changing what is copied before, between and after. -/
namespace Revisions

open Runs

variable {World Event Value Key Shown : Type*}

/-- A value that others change, and the counter that moves on when they do. -/
structure Watched (step : World → Event → World) (Value : Type*) (modulus : Nat) where
  revision : World → Nat
  value : World → Value
  counts : ∀ world event,
    (value (step world event) = value world ∧ revision (step world event) = revision world) ∨
      revision (step world event) = (revision world + 1) % modulus

/-- What is kept: the counter and the key at the last copy, and what was made of it. -/
structure Cache (Key Shown : Type*) where
  stamp : Nat
  key : Key
  shown : Shown

/-- What happens: somebody does something, or the copy is looked at under a key, while somebody
does something between the reading of the counter and the copy. -/
inductive Moment (Event Key : Type*) where
  | other (event : Event)
  | frame (key : Key) (during : List Event)

/-- How often somebody does something. -/
def Moment.count : Moment Event Key → Nat
  | .other _ => 1
  | .frame _ during => during.length

/-- The same under another key. -/
def Moment.under {Other : Type*} (change : Key → Other) : Moment Event Key → Moment Event Other
  | .other event => .other event
  | .frame key during => .frame (change key) during

theorem Moment.count_comp_under {Other : Type*} (change : Key → Other) :
    Moment.count ∘ (Moment.under change : Moment Event Key → Moment Event Other) =
      Moment.count := by
  funext moment
  cases moment <;> rfl

variable {step : World → Event → World} {modulus : Nat}

namespace Watched

variable (watched : Watched step Value modulus) (make : Key → Value → Shown)

section Step

variable [DecidableEq Key]

def look (cache : Cache Key Shown) (key : Key) (world later : World) : Cache Key Shown :=
  if watched.revision world ≠ cache.stamp ∨ key ≠ cache.key then
    { stamp := watched.revision world, key, shown := make key (watched.value later) }
  else cache

def next (state : World × Cache Key Shown) : Moment Event Key → World × Cache Key Shown
  | .other event => (step state.1 event, state.2)
  | .frame key during =>
      let later := run step state.1 during
      (later, watched.look make state.2 key state.1 later)

end Step

/-- The counter is so many steps past the stamp, and at none of them the copy is the value. -/
structure Behind (most : Nat) (state : World × Cache Key Shown) : Prop where
  below : watched.revision state.1 < modulus
  stamped : state.2.stamp < modulus
  past : ∃ count ≤ most, watched.revision state.1 = (state.2.stamp + count) % modulus ∧
    (count = 0 → state.2.shown = make state.2.key (watched.value state.1))

variable {watched make}

/-- The counter moves at most once for each thing that somebody does, and as long as it has not
moved the value is the same. -/
theorem revision_run {world : World} (below : watched.revision world < modulus)
    (events : List Event) :
    watched.revision (run step world events) < modulus ∧
      ∃ count ≤ events.length,
        watched.revision (run step world events) = (watched.revision world + count) % modulus ∧
        (count = 0 → watched.value (run step world events) = watched.value world) := by
  induction events generalizing world with
  | nil => exact ⟨below, 0, Nat.le_refl _, (Nat.mod_eq_of_lt below).symm, fun _ => rfl⟩
  | cons event rest ih =>
      have positive : 0 < modulus := by omega
      rcases watched.counts world event with ⟨value, revision⟩ | moved
      · obtain ⟨later, count, few, past, same⟩ := ih (revision ▸ below)
        refine ⟨later, count, by rw [List.length_cons]; omega, ?_, fun zero => ?_⟩
        · rw [← revision]
          exact past
        · exact (same zero).trans value
      · obtain ⟨later, count, few, past, same⟩ := ih (moved ▸ Nat.mod_lt _ positive)
        refine ⟨later, count + 1, by rw [List.length_cons]; omega, ?_,
          fun zero => absurd zero (Nat.succ_ne_zero _)⟩
        rw [moved, Nat.mod_add_mod, Nat.add_assoc, Nat.add_comm 1] at past
        exact past

/-- A counter that has gone all the way round would be mistaken for one that stood still. -/
theorem eq_zero_of_past {stamp count : Nat} (stamped : stamp < modulus) (room : count < modulus)
    (past : stamp = (stamp + count) % modulus) : count = 0 := by
  by_cases wraps : stamp + count < modulus
  · rw [Nat.mod_eq_of_lt wraps] at past
    omega
  · rw [Nat.mod_eq_sub_mod (Nat.not_lt.mp wraps), Nat.mod_eq_of_lt (by omega)] at past
    omega

theorem Behind.others {most : Nat} {world : World} {cache : Cache Key Shown}
    (behind : watched.Behind make most (world, cache)) (events : List Event) :
    watched.Behind make (most + events.length) (run step world events, cache) := by
  obtain ⟨below, stamped, count, few, past, same⟩ := behind
  obtain ⟨later, more, fewer, onward, still⟩ := revision_run below events
  refine ⟨later, stamped, count + more, by omega, ?_, fun zero => ?_⟩
  · rw [onward, past, Nat.mod_add_mod, Nat.add_assoc]
  · obtain ⟨first, second⟩ := Nat.add_eq_zero_iff.mp zero
    exact (same first).trans (congrArg (make cache.key) (still second).symm)

section Frames

variable [DecidableEq Key]

/-- A copy is the value at a moment between the look at the counter and the copy. -/
theorem Behind.look {most : Nat} {world : World} {cache : Cache Key Shown}
    (behind : watched.Behind make most (world, cache)) (room : most < modulus) (key : Key)
    (during : List Event) :
    ∃ before, before <+: during ∧
      (watched.look make cache key world (run step world during)).shown =
        make key (watched.value (run step world before)) := by
  obtain ⟨below, stamped, count, few, past, same⟩ := behind
  unfold Watched.look
  split
  · exact ⟨during, List.prefix_rfl, rfl⟩
  · rename_i still
    simp only [not_or, Decidable.not_not] at still
    refine ⟨[], List.nil_prefix, ?_⟩
    rw [still.1] at past
    rw [same (eq_zero_of_past stamped (by omega) past), still.2]
    rfl

theorem Behind.next {most : Nat} {state : World × Cache Key Shown}
    (behind : watched.Behind make most state) (moment : Moment Event Key) :
    watched.Behind make (most + moment.count) (watched.next make state moment) := by
  cases moment with
  | other event => exact behind.others [event]
  | frame key during =>
      obtain ⟨later, count, few, past, same⟩ := revision_run behind.below during
      dsimp only [Watched.next, Moment.count, Watched.look]
      split
      · exact ⟨later, behind.below, count, by omega, past, fun _ => rfl⟩
      · exact behind.others during

/-- Whatever has happened before, what a frame shows is what there was at a moment of the frame,
as long as the counter has not gone all the way round. -/
theorem shown_in_frame {first : Nat} {state : World × Cache Key Shown}
    (behind : watched.Behind make first state) (history : List (Moment Event Key)) (key : Key)
    (during : List Event) (room : first + (history.map Moment.count).sum < modulus) :
    let now := run (watched.next make) state history
    ∃ before, before <+: during ∧
      (watched.next make now (.frame key during)).2.shown =
        make key (watched.value (run step now.1 before)) := by
  induction history generalizing first state with
  | nil => exact behind.look room key during
  | cons moment rest ih =>
      rw [List.map_cons, List.sum_cons, ← Nat.add_assoc] at room
      exact ih (behind.next moment) room

end Frames

end Watched

end Revisions
