import Mathlib.Algebra.BigOperators.Group.List.Basic
import Mathlib.Algebra.GroupWithZero.Nat
import PointerLab.ProjectStore
import PointerLab.Runs

set_option autoImplicit false

/- The events of `BreakpointService`: the thread of the debugger queues them, and the window and
the tools take them. Hits in a hot loop are thinned out, the end of the target never is. -/
namespace PointerLab.BreakpointEvents

open Domain ProjectStore Runs

/-- 500 ms of `std::chrono::steady_clock`, in its ticks. -/
def period : Nat := 500000000

/-- What the message of a hit is made of. -/
structure Hit where
  address : Nat
  label : Text := []
  threadId : Nat
  hitCount : Nat
  deriving DecidableEq, Repr

def hitMessage (hit : Hit) : Text :=
  "Breakpoint hit at ".toList ++ toHex hit.address ++
    (if hit.label.isEmpty then [] else " (".toList ++ hit.label ++ ")".toList) ++
    " on thread ".toList ++ decimal hit.threadId ++ ", hit ".toList ++ decimal hit.hitCount ++
    ".".toList

def exitMessage (exitCode : Nat) : Text :=
  "The target process exited with code ".toList ++ decimal exitCode ++ ".".toList

/-- An event that has been queued, and when, if it is one of those that are thinned out. -/
structure Notice where
  message : Text
  time : Option Nat
  deriving DecidableEq, Repr

/-- The service and, beside the program, the clock, what was queued and taken so far, and when
hits came that were not queued. -/
structure Service where
  events : List Text := []
  /-- Zero before the first. -/
  lastEvent : Nat := 0
  clock : Nat
  queued : List Notice := []
  taken : List Text := []
  dropped : List Nat := []
  deriving DecidableEq, Repr

namespace Service

def queueEvent (message : Text) (rateLimited : Bool) (service : Service) : Service :=
  if rateLimited then
    if service.lastEvent ≠ 0 ∧ service.clock - service.lastEvent < period then
      { service with dropped := service.dropped ++ [service.clock] }
    else
      { service with
        lastEvent := service.clock
        events := service.events ++ [message]
        queued := service.queued ++ [⟨message, some service.clock⟩] }
  else
    { service with
      events := service.events ++ [message], queued := service.queued ++ [⟨message, none⟩] }

/-- `takeEvents`, of whoever calls it. -/
def takeEvents (service : Service) : Service × List Text :=
  ({ service with events := [], taken := service.taken ++ service.events }, service.events)

inductive Event where
  | wait (ticks : Nat)
  | hit (hit : Hit)
  | exited (exitCode : Nat)
  | take
  deriving DecidableEq, Repr

def step (service : Service) : Event → Service
  | .wait ticks => { service with clock := service.clock + ticks }
  | .hit hit => service.queueEvent (hitMessage hit) true
  | .exited exitCode => service.queueEvent (exitMessage exitCode) false
  | .take => service.takeEvents.1

/-- When the hits came that were queued. -/
def times (service : Service) : List Nat := service.queued.filterMap Notice.time

/-- What holds between any two calls. -/
structure Thinned (service : Service) : Prop where
  kept : service.taken ++ service.events = service.queued.map Notice.message
  last : service.lastEvent = service.times.getLast?.getD 0
  before : service.lastEvent ≤ service.clock
  apart : service.times.Pairwise fun first second => first + period ≤ second
  newest : ∀ time ∈ service.times, 0 < time ∧ time ≤ service.lastEvent
  near : ∀ time ∈ service.dropped,
    ∃ shown ∈ service.times, shown ≤ time ∧ time < shown + period
  running : 0 < service.clock

theorem thinned_boot {boot : Nat} (running : 0 < boot) : Thinned { clock := boot } where
  kept := rfl
  last := rfl
  before := Nat.zero_le _
  apart := List.Pairwise.nil
  newest := fun _ inside => absurd inside List.not_mem_nil
  near := fun _ inside => absurd inside List.not_mem_nil
  running := running

theorem times_concat (service : Service) (notice : Notice) :
    (service.queued ++ [notice]).filterMap Notice.time =
      service.times ++ notice.time.toList := by
  rw [List.filterMap_append, times]
  cases time : notice.time with
  | none => rw [List.filterMap_cons_none time]; rfl
  | some shown => rw [List.filterMap_cons_some time]; rfl

theorem kept_concat {service : Service} (thinned : Thinned service) (notice : Notice) :
    service.taken ++ (service.events ++ [notice.message]) =
      (service.queued ++ [notice]).map Notice.message := by
  rw [← List.append_assoc, thinned.kept, List.map_append]
  rfl

/-- A hit is queued, or one was queued not long ago. -/
theorem thinned_hit {service : Service} (thinned : Thinned service) (message : Text) :
    Thinned (service.queueEvent message true) := by
  unfold queueEvent
  rw [if_pos rfl]
  split
  · rename_i soon
    obtain ⟨shown, inside⟩ : ∃ shown, service.times.getLast? = some shown := by
      cases found : service.times.getLast? with
      | none =>
          have zero := thinned.last
          rw [found] at zero
          exact absurd zero soon.1
      | some shown => exact ⟨shown, rfl⟩
    have last : service.lastEvent = shown := by rw [thinned.last, inside, Option.getD_some]
    have near : ∃ shown ∈ service.times,
        shown ≤ service.clock ∧ service.clock < shown + period := by
      have before := thinned.before
      refine ⟨shown, List.mem_of_getLast? inside, ?_, ?_⟩
      · omega
      · omega
    exact
      { thinned with
        near := List.forall_mem_append.mpr ⟨thinned.near, List.forall_mem_singleton.mpr near⟩ }
  · rename_i due
    have whole := times_concat service ⟨message, some service.clock⟩
    have before := thinned.before
    have spaced : ∀ time ∈ service.times, time + period ≤ service.clock := by
      intro time inside
      have newest := thinned.newest time inside
      have late : ¬ service.clock - service.lastEvent < period := fun soon =>
        due ⟨by omega, soon⟩
      omega
    refine ⟨kept_concat thinned ⟨message, some service.clock⟩, ?_, Nat.le_refl _, ?_, ?_, ?_,
      thinned.running⟩
    all_goals
      simp only [times] at whole ⊢
      rw [whole]
    · simp
    · rw [Option.toList_some, List.pairwise_append]
      refine ⟨thinned.apart, List.pairwise_singleton _ _, fun time inside last here => ?_⟩
      rw [List.mem_singleton.mp here]
      exact spaced time inside
    · rw [Option.toList_some, List.forall_mem_append, List.forall_mem_singleton]
      refine ⟨fun time inside => ?_, thinned.running, Nat.le_refl _⟩
      have newest := thinned.newest time inside
      exact ⟨newest.1, by omega⟩
    · intro time inside
      obtain ⟨shown, listed, near⟩ := thinned.near time inside
      exact ⟨shown, List.mem_append_left _ listed, near⟩

theorem thinned_exit {service : Service} (thinned : Thinned service) (message : Text) :
    Thinned (service.queueEvent message false) := by
  have whole := times_concat service ⟨message, none⟩
  rw [Option.toList_none, List.append_nil] at whole
  unfold queueEvent
  rw [if_neg Bool.false_ne_true]
  refine ⟨kept_concat thinned ⟨message, none⟩, ?_, thinned.before, ?_, ?_, ?_, thinned.running⟩
  all_goals
    simp only [times] at whole ⊢
    rw [whole]
  · exact thinned.last
  · exact thinned.apart
  · exact thinned.newest
  · exact thinned.near

theorem thinned_step {service : Service} (thinned : Thinned service) (event : Event) :
    Thinned (service.step event) := by
  cases event with
  | wait ticks =>
      have before := thinned.before
      have running := thinned.running
      exact { thinned with
        before := Nat.le_trans before (Nat.le_add_right _ _)
        running := Nat.lt_of_lt_of_le running (Nat.le_add_right _ _) }
  | hit hit => exact thinned_hit thinned (hitMessage hit)
  | exited exitCode => exact thinned_exit thinned (exitMessage exitCode)
  | take => exact { thinned with kept := (List.append_nil _).trans thinned.kept }

/-- How many messages there were. -/
def Event.messages : Event → Nat
  | .hit _ | .exited _ => 1
  | _ => 0

theorem counted_step (service : Service) (event : Event) :
    (service.step event).queued.length + (service.step event).dropped.length =
      service.queued.length + service.dropped.length + event.messages := by
  cases event with
  | wait ticks => rfl
  | take => rfl
  | exited exitCode =>
      simp only [step, queueEvent, Event.messages, Bool.false_eq_true, if_false, List.length_append,
        List.length_singleton]
      omega
  | hit hit =>
      simp only [step, queueEvent, Event.messages, if_true]
      split
      · simp only [List.length_append, List.length_singleton]
        omega
      · simp only [List.length_append, List.length_singleton]
        omega

/-- Over any run: what was taken and what still waits is what was queued, in its order and once;
hits that are shown are half a second apart; a hit that is not shown came less than that after one
that is; and nothing else is left out. -/
theorem events_taken_once {boot : Nat} (running : 0 < boot) (events : List Event) :
    let service := run step { clock := boot } events
    service.taken ++ service.events = service.queued.map Notice.message ∧
      service.times.Pairwise (fun first second => first + period ≤ second) ∧
      (∀ time ∈ service.dropped, ∃ shown ∈ service.times, shown ≤ time ∧ time < shown + period) ∧
      service.queued.length + service.dropped.length = (events.map Event.messages).sum := by
  have thinned : Thinned (run step { clock := boot } events) :=
    (follows_true _ _ events).reached.invariant (thinned_boot running)
      fun _ event before _ => thinned_step before event
  have counted (service : Service) :
      (run step service events).queued.length + (run step service events).dropped.length =
        service.queued.length + service.dropped.length + (events.map Event.messages).sum := by
    clear thinned
    induction events generalizing service with
    | nil => rfl
    | cons event rest ih =>
        rw [List.map_cons, List.sum_cons, ← Nat.add_assoc, ← counted_step]
        exact ih (service.step event)
  refine ⟨thinned.kept, thinned.apart, thinned.near, ?_⟩
  rw [counted]
  simp

/-- Two hits a tenth of a second apart, and somebody who takes what there is. -/
def closeHits : List Event :=
  [.hit { address := 4096, threadId := 1, hitCount := 1 }, .wait 100,
    .hit { address := 4096, threadId := 1, hitCount := 2 }, .take]

theorem events_taken_once_closed :
    let service := run step { clock := 1 } closeHits
    service.taken.length = 1 ∧ service.times = [1] ∧ service.dropped = [101] ∧
      service.taken ++ service.events = service.queued.map Notice.message ∧
      service.times.Pairwise (fun first second => first + period ≤ second) ∧
      (∀ time ∈ service.dropped, ∃ shown ∈ service.times, shown ≤ time ∧ time < shown + period) ∧
      service.queued.length + service.dropped.length = (closeHits.map Event.messages).sum :=
  ⟨by decide, by decide, by decide, events_taken_once (by decide) closeHits⟩

end Service

end PointerLab.BreakpointEvents
