import Mathlib.Data.Fintype.Defs
import PointerLab.SpeedHookMonotone

set_option autoImplicit false

/- `worker` in `SpeedHook.cpp`: the thread of the payload that patches the import slots,
puts them back when it is asked to and hooks again when it is asked for a rate. A slot leads
to the real clock before it is patched and after it is restored, and to the fake one in
between. -/
namespace PointerLab.SpeedHook

open Runs

/-- Where the worker stands. -/
inductive Place (Slot : Type) where
  | starting
  | patchingFirst
  | polling
  /-- It applies the rate 1.0 before it lets go of the slots. -/
  | easing
  | restoring (remaining : List Slot)
  | asking
  | patchingAgain (requested : ℚ)
  | comparing (requested : ℚ)
  | changing (requested : Scale)
  | counting
  | seeking
  | rescanning

/-- What the next step of the worker meets: which real functions are found, which import
entries a patch comes to, and whether a slot's page lets itself be written. -/
inductive Luck (Slot : Type) where
  | goOn
  | finds (name : ClockName)
  | patches (slot : Slot) (written : Bool)
  | restores (written : Bool)

inductive WorkerEvent (Thread Slot : Type) where
  | elapse (name : ClockName) (amount : Nat)
  | call (thread : Thread) (slot : Slot)
  | answer (thread : Thread)
  /-- Pointer Lab writes `pl_requested_scale`. -/
  | request (scale : ℚ)
  /-- Pointer Lab sets `pl_unhook`. -/
  | requestUnhook
  | work (luck : Luck Slot)

structure Worker (Thread Slot : Type) where
  payload : Payload Thread Slot
  place : Place Slot
  requestedScale : ℚ
  unhook : Bool
  alive : Bool
  applied : ℚ
  hooked : Bool
  sinceRescan : Nat
  /-- `g_patches`, the last one first. -/
  patches : List Slot

def maxPatches : Nat := 2048

def rescanInterval : Nat := 60

namespace Worker

variable {Thread Slot : Type} [DecidableEq Thread] [DecidableEq Slot]

/-- `patchModule` redirects an entry that leads elsewhere and has no record yet. -/
def mayPatch (w : Worker Thread Slot) (slot : Slot) : Bool :=
  !(w.payload.redirected slot || slot ∈ w.patches || maxPatches ≤ w.patches.length)

def isPatching : Place Slot → Bool
  | .patchingFirst => true
  | .patchingAgain _ => true
  | .rescanning => true
  | _ => false

/-- What an event does to the clocks and the slots, if anything. -/
def acts (w : Worker Thread Slot) : WorkerEvent Thread Slot → Option (Event Thread Slot)
  | .elapse name amount => some (.elapse name amount)
  | .call thread slot => some (.call thread slot)
  | .answer thread => some (.answer thread)
  | .request _ => none
  | .requestUnhook => none
  | .work (.finds name) =>
      match w.place with
      | .starting => some (.find name)
      | .seeking => if name = .mmTime then some (.find .mmTime) else none
      | _ => none
  | .work (.patches slot written) =>
      if isPatching w.place && w.mayPatch slot && written then some (.patch slot) else none
  | .work (.restores written) =>
      match w.place with
      | .restoring (slot :: _) => if written then some (.restore slot) else none
      | _ => none
  | .work .goOn =>
      match w.place with
      | .polling => if w.unhook then some (.beginChange realTime) else none
      | .easing => some .goOnChanging
      | .comparing requested =>
          if wanted : requested ≠ w.applied ∧ 0 < requested then
            some (.beginChange ⟨requested, wanted.2⟩)
          else none
      | .changing _ => some .goOnChanging
      | _ => none

/-- The worker's own step, once its last call of `applyScale`, if it is inside one, has
come as far as `payload`. -/
def goOn (w : Worker Thread Slot) (payload : Payload Thread Slot) : Worker Thread Slot :=
  match w.place with
  | .starting => { w with place := .patchingFirst }
  | .patchingFirst =>
      { w with
          alive := true
          applied := payload.appliedScale.val
          sinceRescan := 0
          hooked := true
          place := .polling }
  | .polling => if w.unhook then { w with place := .easing } else { w with place := .asking }
  | .easing =>
      if payload.changing.isSome then w
      else { w with applied := 1, place := .restoring w.patches }
  | .restoring [] =>
      { w with
          patches := []
          hooked := false
          unhook := false
          alive := false
          place := .asking }
  | .restoring (_ :: _) => w
  | .asking =>
      if !w.hooked then
        if w.requestedScale ≠ 1 ∧ 0 < w.requestedScale then
          { w with place := .patchingAgain w.requestedScale }
        else
          { w with place := .polling }
      else
        { w with place := .comparing w.requestedScale }
  | .patchingAgain requested =>
      { w with hooked := true, sinceRescan := 0, alive := true, place := .comparing requested }
  | .comparing requested =>
      if wanted : requested ≠ w.applied ∧ 0 < requested then
        { w with place := .changing ⟨requested, wanted.2⟩ }
      else
        { w with place := .counting }
  | .changing requested =>
      if payload.changing.isSome then w
      else { w with applied := requested.val, place := .counting }
  | .counting =>
      if rescanInterval ≤ w.sinceRescan + 1 then
        { w with sinceRescan := 0, place := .seeking }
      else
        { w with sinceRescan := w.sinceRescan + 1, place := .polling }
  | .seeking => { w with place := .rescanning }
  | .rescanning => { w with place := .polling }

/-- The rest of what an event does. -/
def control (w : Worker Thread Slot) (payload : Payload Thread Slot) :
    WorkerEvent Thread Slot → Worker Thread Slot
  | .request scale => { w with requestedScale := scale }
  | .requestUnhook => { w with unhook := true }
  | .work .goOn => w.goOn payload
  | .work (.patches slot _) =>
      if isPatching w.place && w.mayPatch slot then { w with patches := slot :: w.patches } else w
  | .work (.restores _) =>
      match w.place with
      | .restoring (_ :: rest) => { w with place := .restoring rest }
      | _ => w
  | _ => w

def step [Doubles] (imports : Slot → ClockName) (w : Worker Thread Slot)
    (event : WorkerEvent Thread Slot) : Worker Thread Slot :=
  let payload := match w.acts event with
    | none => w.payload
    | some act => w.payload.step imports act
  { w.control payload event with payload := payload }

/-- What the event does to the slot and its clock is done carefully. -/
def Careful [Doubles] (imports : Slot → ClockName) (slot : Slot) (w : Worker Thread Slot)
    (event : WorkerEvent Thread Slot) : Prop :=
  ∀ act, w.acts event = some act → w.payload.Meets imports slot act

end Worker

/-- The module is mapped and its worker about to run. -/
def mapped {Thread Slot : Type} (now : ClockName → Nat) : Worker Thread Slot where
  payload := loaded now (fun _ => false) (fun _ => false)
  place := .starting
  requestedScale := 1
  unhook := false
  alive := false
  applied := 1
  hooked := false
  sinceRescan := 0
  patches := []

namespace Worker

variable {Thread Slot : Type} [DecidableEq Thread] [DecidableEq Slot] [Doubles]
  {imports : Slot → ClockName} {w : Worker Thread Slot} {thread : Thread} {slot : Slot}

theorem ordered_step [Doubles.Ordered] (sound : Payload.Sound imports w.payload)
    (inOrder : Payload.InOrder imports thread slot w.payload)
    (event : WorkerEvent Thread Slot) (careful : w.Careful imports slot event) :
    Payload.Sound imports (w.step imports event).payload ∧
      Payload.InOrder imports thread slot (w.step imports event).payload := by
  unfold step
  match acts : w.acts event with
  | none => exact ⟨sound, inOrder⟩
  | some act =>
      exact ⟨Payload.sound_step sound act,
        Payload.inOrder_step inOrder sound act (careful act acts)⟩

end Worker

/-- In a run whose steps are careful about a slot, no thread sees the time that the slot
gives it go back, however often the slot is patched and restored, and whatever scaled time is
rounded to. -/
theorem values_inOrder [Doubles] [Doubles.Ordered] {Thread Slot : Type} [DecidableEq Thread]
    [DecidableEq Slot] (imports : Slot → ClockName) (now : ClockName → Nat)
    (events : List (WorkerEvent Thread Slot)) (slot : Slot)
    (careful : Follows (Worker.step imports) (Worker.Careful imports slot) (mapped now) events)
    (thread : Thread) :
    ((run (Worker.step imports) (mapped now) events).payload.valuesOf thread slot).Pairwise
      (· ≤ ·) := by
  have kept := @Reached.invariant _ _ _ _ _ _
    (fun w => Payload.Sound imports w.payload ∧ Payload.InOrder imports thread slot w.payload)
    careful.reached ⟨Payload.sound_loaded _ _ _, Payload.inOrder_loaded _ _ _⟩
    fun _ event holds meets => Worker.ordered_step holds.1 holds.2 event meets
  exact kept.2.sorted

namespace Payload

variable {Thread Slot : Type} [DecidableEq Thread] [DecidableEq Slot] [Fintype Thread] [Doubles]

instance (imports : Slot → ClockName) (slot : Slot) (p : Payload Thread Slot) :
    (event : Event Thread Slot) → Decidable (p.Meets imports slot event)
  | .answer thread =>
      decidable_of_iff (∀ asked ∈ p.pending thread, asked.1 = slot →
        (p.redirected slot = false →
          p.shows (imports slot) (p.now (imports slot)) ≤ p.now (imports slot)) ∧
        ((imports slot).isDword = true → p.shows (imports slot) asked.2 < dwordValues))
        ⟨fun every real waits => every (slot, real) waits rfl,
          fun every asked waits same => every asked.2 (by rw [waits, ← same])⟩
  | .patch at_ =>
      have : Decidable (∀ thread place real, p.pending thread = some (place, real) →
          imports place ≠ imports slot) :=
        decidable_of_iff (∀ thread, ∀ asked ∈ p.pending thread, imports asked.1 ≠ imports slot)
          ⟨fun every thread place real waits => every thread (place, real) waits,
            fun every thread asked waits => every thread asked.1 asked.2 waits⟩
      inferInstanceAs (Decidable (_ → _ ∧ _ ∧ (_ → _)))
  | .restore _ => inferInstanceAs (Decidable (_ → _ → _))
  | .elapse _ _ => isTrue trivial
  | .call _ _ => isTrue trivial
  | .beginChange _ => isTrue trivial
  | .goOnChanging => isTrue trivial
  | .find _ => isTrue trivial

instance (imports : Slot → ClockName) (slot : Slot) (w : Worker Thread Slot)
    (event : WorkerEvent Thread Slot) : Decidable (w.Careful imports slot event) :=
  decidable_of_iff (∀ act ∈ w.acts event, w.payload.Meets imports slot act) Iff.rfl

end Payload

def hooking : List (WorkerEvent Unit Unit) :=
  [.work (.finds .qpc), .work .goOn, .work (.patches () true), .work .goOn, .call () (),
    .answer ()]

def unhooking : List (WorkerEvent Unit Unit) :=
  [.requestUnhook, .work .goOn, .work .goOn, .work .goOn, .work .goOn, .work .goOn,
    .work .goOn, .work .goOn, .work (.restores true), .work .goOn, .call () ()]

/-- Hooked at 100, asked again at 200 and, after the slot has been restored, once more; these
numbers are not rounded. -/
theorem values_inOrder_atRealTime :
    ((run (Worker.step fun _ => .qpc) (mapped fun _ => 100)
      (hooking ++ [.work .goOn, .work .goOn, .work .goOn, .elapse .qpc 100, .call () (),
        .answer ()] ++ unhooking)).payload.valuesOf () ()).Pairwise (· ≤ ·) :=
  values_inOrder _ _ _ () (by decide +kernel) ()

/-- The same at the double rate: the slot is restored at 200, when its clock shows 300. -/
theorem unhooking_goes_back :
    ¬ ((run (Worker.step fun _ => .qpc) (mapped fun _ => 100)
      (hooking ++ [.request 2, .work .goOn, .work .goOn, .work .goOn, .work .goOn, .work .goOn,
        .work .goOn, .work .goOn, .work .goOn, .work .goOn, .elapse .qpc 100, .call () (),
        .answer ()] ++ unhooking)).payload.valuesOf () ()).Pairwise (· ≤ ·) := by
  decide +kernel

end PointerLab.SpeedHook
