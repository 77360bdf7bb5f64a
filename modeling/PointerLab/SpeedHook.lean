import Mathlib.Init
import Mathlib.Algebra.Order.Floor.Ring
import Mathlib.Data.Rat.Floor
import Mathlib.Logic.Function.Basic
import Mathlib.Tactic.Linarith
import Mathlib.Tactic.Positivity
import PointerLab.Runs

set_option autoImplicit false

/- The clocks of the speed payload. Each keeps the real value and the fake one of its
last rebase, and every hook reads the real clock before it takes the lock, so a reading
may be older than the bases it meets. -/
namespace PointerLab.SpeedHook

inductive ClockName where
  | qpc
  | tick32
  | tick64
  | mmTime
deriving DecidableEq

/-- `g_clocks`, in the order a change of rate goes through them. -/
def clockNames : List ClockName := [.qpc, .tick32, .tick64, .mmTime]

/-- `GetTickCount` and `timeGetTime` return a DWORD. -/
def ClockName.isDword : ClockName → Bool
  | .tick32 => true
  | .mmTime => true
  | .qpc => false
  | .tick64 => false

def dwordValues : Int := 4294967296

/-- What a hook returns for a fake value: the 32-bit hooks cut it to a DWORD. -/
def ClockName.returned (name : ClockName) (fake : Int) : Int :=
  if name.isDword then fake % dwordValues else fake

structure Clock where
  baseReal : Int
  baseFake : Int
  started : Bool

/-- A rate, as far as the payload's worker accepts one. -/
abbrev Scale : Type := { scale : ℚ // 0 < scale }

def realTime : Scale := ⟨1, by norm_num⟩

/-- The conversion to `LONG64`, which cuts towards zero. -/
def truncate (value : ℚ) : Int := if 0 ≤ value then ⌊value⌋ else ⌈value⌉

/-- The arithmetic that scaled time is worked out in, by the number that comes nearest to another
in it. -/
class Doubles where
  nearest : ℚ → ℚ

/-- Without rounding. -/
instance unrounded : Doubles where
  nearest := id

/-- Rounding keeps the order, and zero is a number of its own. -/
class Doubles.Ordered [Doubles] : Prop where
  nearest_mono : Monotone nearest
  nearest_zero : nearest 0 = 0

instance : Doubles.Ordered where
  nearest_mono := monotone_id
  nearest_zero := rfl

/-- `static_cast<LONG64>(static_cast<double>(elapsed) * scale)` -/
def scaled [Doubles] (scale : Scale) (elapsed : Int) : Int :=
  truncate (Doubles.nearest (Doubles.nearest elapsed * scale.val))

/-- `fakeOf`: the value for a reading, and the clock it leaves. -/
def fakeOf [Doubles] (clock : Clock) (real : Int) (scale : Scale) : Clock × Int :=
  if !clock.started then
    ({ baseReal := real, baseFake := real, started := true }, real)
  else
    let clock := if real < clock.baseReal then { clock with baseReal := real } else clock
    (clock, clock.baseFake + scaled scale (real - clock.baseReal))

/-- The value a clock reports for a reading. -/
def shown [Doubles] (clock : Clock) (scale : Scale) (real : Int) : Int :=
  (fakeOf clock real scale).2

/-- What a change of rate does to one clock, before the new rate applies. -/
def rebase [Doubles] (clock : Clock) (real : Int) (current : Scale) : Clock :=
  if clock.started then
    { (fakeOf clock real current).1 with
        baseFake := (fakeOf clock real current).2, baseReal := real }
  else
    clock

/-! ## What a clock reports -/

theorem truncate_of_nonneg {value : ℚ} (nonneg : 0 ≤ value) : truncate value = ⌊value⌋ := by
  simp [truncate, nonneg]

section Rounded

variable [Doubles]

@[simp] theorem shown_unstarted {clock : Clock} (fresh : clock.started = false) (scale : Scale)
    (real : Int) : shown clock scale real = real := by
  simp [shown, fakeOf, fresh]

theorem shown_late {clock : Clock} (started : clock.started = true) (scale : Scale)
    {real : Int} (late : clock.baseReal ≤ real) :
    shown clock scale real = clock.baseFake + scaled scale (real - clock.baseReal) := by
  have inOrder : ¬ real < clock.baseReal := by omega
  simp only [shown, fakeOf, started, Bool.not_true, Bool.false_eq_true, if_false, inOrder]

/-- The base an answer leaves: an older reading moves it back. -/
theorem fakeOf_clock {clock : Clock} (started : clock.started = true) (scale : Scale)
    (real : Int) :
    (fakeOf clock real scale).1 = { clock with baseReal := min real clock.baseReal } := by
  rcases Int.lt_or_le real clock.baseReal with older | late
  · simp [fakeOf, started, older, min_eq_left older.le]
  · rw [min_eq_right late, fakeOf, if_neg (by simp [started])]
    simp only [Int.not_lt.mpr late, if_false]

theorem fakeOf_unstarted {clock : Clock} (fresh : clock.started = false) (scale : Scale)
    (real : Int) :
    (fakeOf clock real scale).1 = { baseReal := real, baseFake := real, started := true } := by
  simp [fakeOf, fresh]

@[simp] theorem fakeOf_started (clock : Clock) (scale : Scale) (real : Int) :
    (fakeOf clock real scale).1.started = true := by
  cases started : clock.started with
  | false => rw [fakeOf_unstarted started]
  | true => rw [fakeOf_clock started]; exact started

@[simp] theorem rebase_unstarted {clock : Clock} (fresh : clock.started = false) (real : Int)
    (scale : Scale) : rebase clock real scale = clock := by
  simp [rebase, fresh]

theorem rebase_started {clock : Clock} (started : clock.started = true) (real : Int)
    (scale : Scale) :
    rebase clock real scale =
      { baseReal := real, baseFake := shown clock scale real, started := true } := by
  simp [rebase, started, shown]

variable [Doubles.Ordered]

@[simp] theorem scaled_zero (scale : Scale) : scaled scale 0 = 0 := by
  simp [scaled, Doubles.Ordered.nearest_zero, truncate]

/-- More time passes as more time, however the product is rounded. -/
theorem scaled_mono (scale : Scale) {less more : Int} (nonneg : 0 ≤ less) (inOrder : less ≤ more) :
    scaled scale less ≤ scaled scale more := by
  have mono := @Doubles.Ordered.nearest_mono _ _
  have zero := @Doubles.Ordered.nearest_zero _ _
  have first : (0 : ℚ) ≤ Doubles.nearest less := by
    rw [← zero]
    exact mono (by exact_mod_cast nonneg)
  have factors : Doubles.nearest (less : ℚ) ≤ Doubles.nearest more :=
    mono (by exact_mod_cast inOrder)
  have products := mono (mul_le_mul_of_nonneg_right factors scale.property.le)
  have low : (0 : ℚ) ≤ Doubles.nearest (Doubles.nearest less * scale.val) := by
    have product := mono (mul_nonneg first scale.property.le)
    rwa [zero] at product
  rw [scaled, scaled, truncate_of_nonneg low, truncate_of_nonneg (le_trans low products)]
  exact Int.floor_le_floor products

theorem scaled_nonneg (scale : Scale) {elapsed : Int} (nonneg : 0 ≤ elapsed) :
    0 ≤ scaled scale elapsed := by
  rw [← scaled_zero scale]
  exact scaled_mono scale (le_refl 0) nonneg

/-- A reading older than the base is answered with the base. -/
theorem shown_of_ge {clock : Clock} (started : clock.started = true) (scale : Scale)
    {real : Int} (early : real ≤ clock.baseReal) : shown clock scale real = clock.baseFake := by
  rcases Int.lt_or_eq_of_le early with older | same
  · simp [shown, fakeOf, started, older]
  · simp [shown, fakeOf, started, same]

theorem base_le_shown {clock : Clock} (started : clock.started = true) (scale : Scale)
    (real : Int) : clock.baseFake ≤ shown clock scale real := by
  rcases Int.le_total clock.baseReal real with late | early
  · rw [shown_late started scale late]
    have elapsed := scaled_nonneg scale (Int.sub_nonneg_of_le late)
    omega
  · rw [shown_of_ge started scale early]

theorem shown_mono (clock : Clock) (scale : Scale) {real later : Int} (inOrder : real ≤ later) :
    shown clock scale real ≤ shown clock scale later := by
  cases started : clock.started with
  | false => simpa [started] using inOrder
  | true =>
      rcases Int.le_total clock.baseReal real with late | early
      · rw [shown_late started scale late, shown_late started scale (le_trans late inOrder)]
        have elapsed := scaled_mono scale (Int.sub_nonneg_of_le late)
          (Int.sub_le_sub_right inOrder clock.baseReal)
        omega
      · rw [shown_of_ge started scale early]
        exact base_le_shown started scale later

/-- A base that is moved back makes the clock report later values from then on. -/
theorem shown_le_moved {clock : Clock} (started : clock.started = true) (scale : Scale)
    {base : Int} (back : base ≤ clock.baseReal) (real : Int) :
    shown clock scale real ≤ shown { clock with baseReal := base } scale real := by
  have moved : ({ clock with baseReal := base } : Clock).started = true := started
  rcases Int.le_total clock.baseReal real with late | early
  · rw [shown_late started scale late, shown_late moved scale (le_trans back late)]
    exact Int.add_le_add_left
      (scaled_mono scale (Int.sub_nonneg_of_le late) (Int.sub_le_sub_left back real)) _
  · rw [shown_of_ge started scale early]
    exact base_le_shown moved scale real

theorem shown_le_answered {clock : Clock} (started : clock.started = true) (scale : Scale)
    (taken real : Int) :
    shown clock scale real ≤ shown (fakeOf clock taken scale).1 scale real := by
  rw [fakeOf_clock started]
  exact shown_le_moved started scale (min_le_right _ _) real

/-- The value an answer returns is what the clock it leaves reports for that reading. -/
theorem shown_answered (clock : Clock) (scale : Scale) (real : Int) :
    shown (fakeOf clock real scale).1 scale real = shown clock scale real := by
  cases started : clock.started with
  | false =>
      rw [fakeOf_unstarted started, shown_unstarted started]
      exact shown_of_ge rfl scale (le_refl real)
  | true =>
      rw [fakeOf_clock started]
      rcases Int.le_total clock.baseReal real with late | early
      · rw [min_eq_right late]
      · have moved : ({ clock with baseReal := real } : Clock).started = true := started
        rw [min_eq_left early, shown_of_ge started scale early]
        exact shown_of_ge moved scale (le_refl real)

/-- At the reading a change of rate takes, the clock reports the same value before it and
after it, whatever the new rate is. -/
theorem shown_rebase (clock : Clock) (current next : Scale) (real : Int) :
    shown (rebase clock real current) next real = shown clock current real := by
  cases started : clock.started with
  | false => simp [started]
  | true =>
      rw [rebase_started started]
      exact shown_of_ge rfl next (le_refl real)

end Rounded

/-- Without rounding, the product is cut to the whole number below it. -/
theorem shown_of_le {clock : Clock} (started : clock.started = true) (scale : Scale)
    {real : Int} (late : clock.baseReal ≤ real) :
    shown clock scale real =
      clock.baseFake + ⌊((real - clock.baseReal : Int) : ℚ) * scale.val⌋ := by
  have elapsed : (0 : ℚ) ≤ ((real - clock.baseReal : Int) : ℚ) * scale.val := by
    have nonneg : (0 : ℚ) ≤ ((real - clock.baseReal : Int) : ℚ) := by
      exact_mod_cast Int.sub_nonneg_of_le late
    exact mul_nonneg nonneg scale.property.le
  rw [shown_late started scale late, ← truncate_of_nonneg elapsed]
  rfl

/- The payload among the threads of its target, which reach the clocks through import
slots. -/

structure Reply (Thread Slot : Type) where
  thread : Thread
  slot : Slot
  value : Int
deriving DecidableEq

structure Payload (Thread Slot : Type) where
  now : ClockName → Nat
  clocks : ClockName → Clock
  appliedScale : Scale
  /-- The address of the real function is known. -/
  found : ClockName → Bool
  /-- `applyScale` has the lock: the clocks it has not come to, and the next rate. -/
  changing : Option (List ClockName × Scale)
  /-- The thread is inside a hook and has read the real clock. -/
  pending : Thread → Option (Slot × Nat)
  redirected : Slot → Bool
  /-- What the target's queries returned, in that order. -/
  received : List (Reply Thread Slot)

inductive Event (Thread Slot : Type) where
  | elapse (name : ClockName) (amount : Nat)
  | call (thread : Thread) (slot : Slot)
  /-- The hook's critical section. -/
  | answer (thread : Thread)
  /-- `applyScale` takes the lock. -/
  | beginChange (next : Scale)
  /-- It rebases its next clock or, after the last, applies the rate and leaves. -/
  | goOnChanging
  | patch (slot : Slot)
  | restore (slot : Slot)
  | find (name : ClockName)

/-- Time goes on, a query is made or answered, or a rate is changed; the slots and the real
functions stay what they are. -/
def Event.isHooking {Thread Slot : Type} : Event Thread Slot → Bool
  | .elapse _ _ => true
  | .call _ _ => true
  | .answer _ => true
  | .beginChange _ => true
  | .goOnChanging => true
  | .patch _ => false
  | .restore _ => false
  | .find _ => false

def Event.isChange {Thread Slot : Type} : Event Thread Slot → Bool
  | .beginChange _ => true
  | _ => false

namespace Payload

variable {Thread Slot : Type} [DecidableEq Thread] [DecidableEq Slot]

/-- What a clock's `read` gives. -/
def read (p : Payload Thread Slot) (name : ClockName) : Int :=
  if p.found name then p.now name else 0

def receive (p : Payload Thread Slot) (thread : Thread) (slot : Slot) (value : Int) :
    Payload Thread Slot :=
  { p with received := p.received ++ [⟨thread, slot, value⟩] }

/-- What the hook of a clock does without the real function's address. -/
def refuse (p : Payload Thread Slot) (thread : Thread) (slot : Slot) :
    ClockName → Payload Thread Slot
  | .qpc => p
  | .tick32 => p.receive thread slot 0
  | .tick64 => p.receive thread slot 0
  | .mmTime => p.receive thread slot 0

/-- A query through a slot: the hook reads the real clock, the real function answers. -/
def call (imports : Slot → ClockName) (p : Payload Thread Slot) (thread : Thread)
    (slot : Slot) : Payload Thread Slot :=
  if p.redirected slot then
    if p.found (imports slot) then
      { p with pending := Function.update p.pending thread (some (slot, p.now (imports slot))) }
    else
      p.refuse thread slot (imports slot)
  else
    p.receive thread slot (p.now (imports slot))

/-- The part of a hook under the lock, and its return. -/
def answer [Doubles] (imports : Slot → ClockName) (p : Payload Thread Slot) (thread : Thread)
    (slot : Slot) (real : Nat) : Payload Thread Slot :=
  let fake := fakeOf (p.clocks (imports slot)) real p.appliedScale
  { p with
      clocks := Function.update p.clocks (imports slot) fake.1
      pending := Function.update p.pending thread none
      received := p.received ++ [⟨thread, slot, (imports slot).returned fake.2⟩] }

def goOnChanging [Doubles] (p : Payload Thread Slot) : Payload Thread Slot :=
  match p.changing with
  | none => p
  | some ([], next) => { p with appliedScale := next, changing := none }
  | some (name :: rest, next) =>
      { p with
          clocks := Function.update p.clocks name
            (rebase (p.clocks name) (p.read name) p.appliedScale)
          changing := some (rest, next) }

/-- One step. A thread makes one query at a time, and a hook's critical section waits
for the lock; the real 32-bit clocks do not decrease, so they do not wrap. -/
def step [Doubles] (imports : Slot → ClockName) (p : Payload Thread Slot) :
    Event Thread Slot → Payload Thread Slot
  | .elapse name amount =>
      if name.isDword ∧ dwordValues ≤ p.now name + amount then p
      else { p with now := Function.update p.now name (p.now name + amount) }
  | .call thread slot =>
      match p.pending thread with
      | some _ => p
      | none => p.call imports thread slot
  | .answer thread =>
      match p.pending thread, p.changing with
      | some (slot, real), none => p.answer imports thread slot real
      | _, _ => p
  | .beginChange next =>
      match p.changing with
      | some _ => p
      | none => { p with changing := some (clockNames, next) }
  | .goOnChanging => p.goOnChanging
  | .patch slot =>
      if p.changing.isSome then p
      else { p with redirected := Function.update p.redirected slot true }
  | .restore slot =>
      if p.changing.isSome then p
      else { p with redirected := Function.update p.redirected slot false }
  | .find name => { p with found := Function.update p.found name true }

/-- The values a thread has received through a slot. -/
def valuesOf (p : Payload Thread Slot) (thread : Thread) (slot : Slot) : List Int :=
  (p.received.filter fun reply => reply.thread = thread ∧ reply.slot = slot).map Reply.value

end Payload

/-- The module as it is mapped: no clock has started and no hook has been called. -/
def loaded {Thread Slot : Type} (now : ClockName → Nat) (found : ClockName → Bool)
    (redirected : Slot → Bool) : Payload Thread Slot where
  now := now
  clocks := fun _ => { baseReal := 0, baseFake := 0, started := false }
  appliedScale := realTime
  found := found
  changing := none
  pending := fun _ => none
  redirected := redirected
  received := []

end PointerLab.SpeedHook
