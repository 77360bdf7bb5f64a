import Mathlib.Data.List.Basic
import PointerLab.Runs

set_option autoImplicit false

/- A worker that goes over a list and may be told to stop at any moment. It looks at the flag
before each item and once more after its loop; what it saw then decides whether its own list
is installed or the one it was given. -/
namespace Interruptible

open Runs

variable {Item : Type*}

inductive Phase (Item : Type*) where
  | looping (rest kept : List Item)
  | leaving (kept : List Item)
  | decided (cancelled : Bool) (kept : List Item)
  | finished

structure Job (Item : Type*) where
  cancel : Bool
  phase : Phase Item
  installed : List Item

/-- How many steps the worker has before it. -/
def Job.left (job : Job Item) : Nat :=
  match job.phase with
  | .looping rest _ => rest.length + 3
  | .leaving _ => 2
  | .decided _ _ => 1
  | .finished => 0

/-- Somebody sets the flag, or the worker takes its next step. -/
inductive Event where
  | cancel
  | work
  deriving DecidableEq

/-- What the worker goes over, what it makes of each item, and whether the list that it fills
is cleared first. A visit may also leave the loop. -/
structure Pass (Item : Type*) where
  given : List Item
  visit : List Item → Item → List Item × Bool
  cleared : Bool

namespace Pass

variable (pass : Pass Item)

/-- The list as it is while the worker is at it. -/
def meanwhile : List Item := if pass.cleared then [] else pass.given

def start (cancel : Bool) : Job Item := ⟨cancel, .looping pass.given [], pass.meanwhile⟩

def work (job : Job Item) : Job Item :=
  match job.phase with
  | .looping [] kept => { job with phase := .leaving kept }
  | .looping (item :: rest) kept =>
      if job.cancel then { job with phase := .leaving kept }
      else if (pass.visit kept item).2 then { job with phase := .leaving (pass.visit kept item).1 }
      else { job with phase := .looping rest (pass.visit kept item).1 }
  | .leaving kept => { job with phase := .decided job.cancel kept }
  | .decided cancelled kept =>
      { job with phase := .finished, installed := if cancelled then pass.given else kept }
  | .finished => job

def step (job : Job Item) : Event → Job Item
  | .cancel => { job with cancel := true }
  | .work => pass.work job

/-- What visiting the items in order comes to, up to the one that leaves the loop. -/
def wholeFrom : List Item → List Item → List Item
  | [], kept => kept
  | item :: rest, kept =>
      if (pass.visit kept item).2 then (pass.visit kept item).1
      else wholeFrom rest (pass.visit kept item).1

/-- What an uninterrupted worker makes of its list. -/
def whole : List Item := pass.wholeFrom pass.given []

/-- What is kept is whole, or the flag is set. -/
def Sound (job : Job Item) : Prop :=
  match job.phase with
  | .looping rest kept => job.installed = pass.meanwhile ∧ pass.wholeFrom rest kept = pass.whole
  | .leaving kept => job.installed = pass.meanwhile ∧ (kept = pass.whole ∨ job.cancel = true)
  | .decided cancelled kept =>
      job.installed = pass.meanwhile ∧ (kept = pass.whole ∨ cancelled = true)
  | .finished => job.installed = pass.given ∨ job.installed = pass.whole

variable {pass} {job : Job Item}

theorem Sound.work (sound : pass.Sound job) : pass.Sound (pass.work job) := by
  obtain ⟨cancel, phase, installed⟩ := job
  cases phase with
  | looping rest kept =>
      obtain ⟨same, whole⟩ := sound
      cases rest with
      | nil => exact ⟨same, Or.inl whole⟩
      | cons item rest =>
          unfold Pass.work
          rw [wholeFrom] at whole
          dsimp only
          split
          · rename_i cancelled
            exact ⟨same, Or.inr cancelled⟩
          · split
            · rename_i leaves
              rw [if_pos leaves] at whole
              exact ⟨same, Or.inl whole⟩
            · rename_i stays
              rw [if_neg stays] at whole
              exact ⟨same, whole⟩
  | leaving kept => exact sound
  | decided cancelled kept =>
      obtain ⟨same, whole⟩ := sound
      cases cancelled with
      | true => exact Or.inl rfl
      | false => exact Or.inr (whole.resolve_right Bool.false_ne_true)
  | finished => exact sound

theorem Sound.cancel (sound : pass.Sound job) : pass.Sound { job with cancel := true } := by
  obtain ⟨cancel, phase, installed⟩ := job
  cases phase with
  | leaving kept => exact ⟨sound.1, Or.inr rfl⟩
  | looping rest kept => exact sound
  | decided cancelled kept => exact sound
  | finished => exact sound

/-- Whatever happens, whenever. -/
theorem Sound.run (sound : pass.Sound job) (events : List Event) :
    pass.Sound (Runs.run pass.step job events) := by
  induction events generalizing job with
  | nil => exact sound
  | cons event rest ih =>
      cases event with
      | cancel => exact ih sound.cancel
      | work => exact ih sound.work

/-- A worker that is done leaves its list as it is. -/
theorem finished_stays (cancel : Bool) (installed : List Item) (events : List Event) :
    ∃ flag, Runs.run pass.step ⟨cancel, .finished, installed⟩ events =
      ⟨flag, .finished, installed⟩ := by
  induction events generalizing cancel with
  | nil => exact ⟨cancel, rfl⟩
  | cons event rest ih =>
      cases event with
      | cancel => exact ih true
      | work => exact ih cancel

theorem sound_start (pass : Pass Item) (cancel : Bool) : pass.Sound (pass.start cancel) :=
  ⟨rfl, rfl⟩

/-- A step brings the worker nearer to its end. -/
theorem left_work (pass : Pass Item) (job : Job Item) :
    (pass.work job).left ≤ job.left - 1 := by
  obtain ⟨cancel, phase, installed⟩ := job
  cases phase with
  | looping rest kept =>
      cases rest with
      | nil => exact Nat.le_of_ble_eq_true rfl
      | cons item rest =>
          unfold Pass.work
          dsimp only
          split
          · show 2 ≤ rest.length + 1 + 3 - 1
            omega
          · split
            · show 2 ≤ rest.length + 1 + 3 - 1
              omega
            · show rest.length + 3 ≤ rest.length + 1 + 3 - 1
              omega
  | leaving kept => exact Nat.le_refl 1
  | decided cancelled kept => exact Nat.le_refl 0
  | finished => exact Nat.le_refl 0

theorem left_run (pass : Pass Item) (job : Job Item) (events : List Event) :
    (Runs.run pass.step job events).left ≤ job.left - events.count .work := by
  induction events generalizing job with
  | nil => exact Nat.le_refl _
  | cons event rest ih =>
      have later := ih (pass.step job event)
      cases event with
      | cancel =>
          rw [List.count_cons_of_ne (by decide)]
          exact later
      | work =>
          have nearer := left_work pass job
          rw [List.count_cons_self]
          apply Nat.le_trans later
          show (pass.work job).left - rest.count .work ≤ job.left - (rest.count .work + 1)
          omega

/-- Until its end the worker installs nothing, then the list it was given or its whole own; and
it does come to its end. -/
theorem installs (pass : Pass Item) (cancel : Bool) (events : List Event) :
    let job := Runs.run pass.step (pass.start cancel) events
    (job.left ≠ 0 → job.installed = pass.meanwhile) ∧
      (job.left = 0 → job.installed = pass.given ∨ job.installed = pass.whole) ∧
      (pass.given.length + 3 ≤ events.count .work → job.left = 0) := by
  intro job
  have sound : pass.Sound job := (sound_start pass cancel).run events
  have ends := left_run pass (pass.start cancel) events
  have length : (pass.start cancel).left = pass.given.length + 3 := rfl
  refine ⟨?_, ?_, fun enough => ?_⟩
  · intro busy
    obtain ⟨flag, phase, installed⟩ := job
    cases phase with
    | looping rest kept => exact sound.1
    | leaving kept => exact sound.1
    | decided cancelled kept => exact sound.1
    | finished => exact absurd rfl busy
  · intro idle
    obtain ⟨flag, phase, installed⟩ := job
    cases phase with
    | looping rest kept => exact absurd idle (Nat.succ_ne_zero _)
    | leaving kept => exact absurd idle (Nat.succ_ne_zero 1)
    | decided cancelled kept => exact absurd idle (Nat.succ_ne_zero 0)
    | finished => exact sound
  · rw [length] at ends
    show (Runs.run pass.step (pass.start cancel) events).left = 0
    omega

end Pass

end Interruptible
