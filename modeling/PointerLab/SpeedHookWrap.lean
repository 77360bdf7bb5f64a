import Mathlib.Tactic.Linarith
import PointerLab.SpeedHook

set_option autoImplicit false

/- A 32-bit clock in a single thread, whose real value wraps: how far the reported value goes
between two queries. -/
namespace PointerLab.SpeedHook

open Runs

/-- `GetTickCount` or `timeGetTime`, the clock of its hook and the rate in force. -/
structure TickHook where
  now : UInt32
  clock : Clock
  appliedScale : Scale

/-- What reads the real clock, with the ticks since the reading before. -/
inductive TickEvent where
  | query (elapsed : UInt32)
  | applyScale (elapsed : UInt32) (next : Scale)

namespace TickEvent

def elapsed : TickEvent → UInt32
  | .query elapsed => elapsed
  | .applyScale elapsed _ => elapsed

def isChange : TickEvent → Bool
  | .query _ => false
  | .applyScale _ _ => true

/-- The rate after the event. -/
def rateAfter (scale : Scale) : TickEvent → Scale
  | .query _ => scale
  | .applyScale _ next => next

end TickEvent

/-- The real time of the events, every stretch times the rate in force. -/
def scaledTime : Scale → List TickEvent → ℚ
  | _, [] => 0
  | scale, event :: rest =>
      event.elapsed.toNat * scale.val + scaledTime (event.rateAfter scale) rest

namespace TickHook

def wait (h : TickHook) (elapsed : UInt32) : TickHook := { h with now := h.now + elapsed }

/-- `g_realGetTickCount()` as the hooks and `readTick32` widen it. -/
def real (h : TickHook) : Int := h.now.toNat

/-- `hookedGetTickCount` and `hookedTimeGetTime`. -/
def hooked (name : ClockName) (h : TickHook) : TickHook × Int :=
  let fake := fakeOf h.clock h.real h.appliedScale
  ({ h with clock := fake.1 }, name.returned fake.2)

/-- `applyScale` as far as this clock goes. -/
def applyScale (h : TickHook) (next : Scale) : TickHook :=
  { h with clock := rebase h.clock h.real h.appliedScale, appliedScale := next }

def step (name : ClockName) (h : TickHook) : TickEvent → TickHook
  | .query elapsed => ((h.wait elapsed).hooked name).1
  | .applyScale elapsed next => (h.wait elapsed).applyScale next

/-- What a query that many ticks later returns. -/
def reported (name : ClockName) (h : TickHook) (elapsed : UInt32) : Int :=
  ((h.wait elapsed).hooked name).2

/-- The payload as it is mapped. -/
def mapped (now : UInt32) : TickHook where
  now := now
  clock := { baseReal := 0, baseFake := 0, started := false }
  appliedScale := realTime

/-- One unit for each change that has set a rate in force between the two queries. -/
def roundings (before between : List TickEvent) : Nat :=
  between.countP TickEvent.isChange + if before.any TickEvent.isChange then 1 else 0

/-- From one query to a later one the reported value advances, up to multiples of 2^32, by the
scaled time that has passed, up to the roundings. -/
def KeepsRate (name : ClockName) (now : UInt32) (before : List TickEvent) (first : UInt32)
    (between : List TickEvent) (second : UInt32) : Prop :=
  let h := run (step name) (mapped now) before
  let later := run (step name) h (.query first :: between)
  ∃ wraps : Int,
    |((later.reported name second - h.reported name first + wraps * dwordValues : Int) : ℚ) -
        scaledTime h.appliedScale (between ++ [.query second])| ≤ roundings before between

/-- A started clock gets no reading below its base, and one from behind a wrap only while the
rate is a whole number. -/
def Steady (h : TickHook) (event : TickEvent) : Prop :=
  h.clock.started = true →
    h.clock.baseReal ≤ (h.wait event.elapsed).real ∧
      (h.now ≤ h.now + event.elapsed ∨ h.appliedScale.val.den = 1)

/-! ## What the clock would report without rounding -/

def exactValue (h : TickHook) : ℚ :=
  h.clock.baseFake + (h.real - h.clock.baseReal : Int) * h.appliedScale.val

theorem shown_eq_floor {h : TickHook} (started : h.clock.started = true)
    (late : h.clock.baseReal ≤ h.real) :
    shown h.clock h.appliedScale h.real = ⌊h.exactValue⌋ := by
  rw [shown_of_le started h.appliedScale late]
  unfold exactValue
  rw [Int.floor_intCast_add]

/-- Ticks advance the exact value at the rate, modulo 2^32. -/
theorem exactValue_wait (h : TickHook) (elapsed : UInt32)
    (steady : h.now ≤ h.now + elapsed ∨ h.appliedScale.val.den = 1) :
    ∃ wraps : Int, (h.wait elapsed).exactValue + (wraps * dwordValues : Int) =
      h.exactValue + elapsed.toNat * h.appliedScale.val := by
  have low := h.now.toNat_lt
  have sum := UInt32.toNat_add h.now elapsed
  rcases Nat.lt_or_ge (h.now.toNat + elapsed.toNat) (2 ^ 32) with fits | wrapped
  · refine ⟨0, ?_⟩
    rw [Nat.mod_eq_of_lt fits] at sum
    simp only [exactValue, real, wait, sum]
    push_cast
    ring
  · have less := elapsed.toNat_lt
    have back : ¬ h.now ≤ h.now + elapsed := by
      rw [UInt32.le_iff_toNat_le]
      omega
    have whole := steady.resolve_left back
    have now_eq : ((h.now + elapsed).toNat : Int) =
        h.now.toNat + elapsed.toNat - dwordValues := by
      unfold dwordValues
      omega
    have scale_eq : (h.appliedScale.val.num : ℚ) = h.appliedScale.val :=
      Rat.den_eq_one_iff _ |>.mp whole
    refine ⟨h.appliedScale.val.num, ?_⟩
    simp only [exactValue, real, wait, now_eq]
    push_cast
    rw [scale_eq]
    ring

/-! ## The bookkeeping of a run -/

/-- How far the exact value may be from the scaled time: nothing at the rate the payload starts
with, and afterwards less by one unit for each change but the last. -/
def Off (scale : Scale) (units : Nat) (off : ℚ) : Prop :=
  (units = 0 ∧ off = 0 ∧ scale = realTime) ∨ (1 ≤ units ∧ 1 - (units : ℚ) ≤ off ∧ off ≤ units)

/-- Since a query that was answered `value`, `scaled` has passed. -/
structure Tracks (value : Int) (scaled : ℚ) (units : Nat) (h : TickHook) : Prop where
  started : h.clock.started = true
  inOrder : h.clock.baseReal ≤ h.real
  exact_ : ∃ wraps : Int,
    Off h.appliedScale units (h.exactValue + (wraps * dwordValues : Int) - (value + scaled))

variable {h : TickHook} {value : Int} {scaled : ℚ} {units : Nat}

theorem tracks_wait (tracks : Tracks value scaled units h) {event : TickEvent}
    (steady : h.Steady event) :
    Tracks value (scaled + event.elapsed.toNat * h.appliedScale.val) units
      (h.wait event.elapsed) := by
  obtain ⟨late, forward⟩ := steady tracks.started
  obtain ⟨wraps, off⟩ := tracks.exact_
  obtain ⟨more, advance⟩ := h.exactValue_wait event.elapsed forward
  refine ⟨tracks.started, late, wraps + more, ?_⟩
  have same : (h.wait event.elapsed).exactValue + ((wraps + more) * dwordValues : Int) -
      (value + (scaled + event.elapsed.toNat * h.appliedScale.val)) =
        h.exactValue + (wraps * dwordValues : Int) - (value + scaled) := by
    push_cast at advance ⊢
    linarith
  rw [same]
  exact off

/-- At the rate the payload starts with, the exact value is a whole number. -/
theorem floor_exactValue (h : TickHook) (original : h.appliedScale = realTime) :
    (⌊h.exactValue⌋ : ℚ) = h.exactValue := by
  have whole : h.exactValue = ((h.clock.baseFake + (h.real - h.clock.baseReal) : Int) : ℚ) := by
    simp only [exactValue, original, realTime]
    push_cast
    ring
  rw [whole, Int.floor_intCast]

/-- Cutting the exact value to a whole number costs one more unit at most. -/
theorem Off.floor {wraps : Int}
    (off : Off h.appliedScale units
      (h.exactValue + (wraps * dwordValues : Int) - (value + scaled))) :
    -(units : ℚ) ≤ ⌊h.exactValue⌋ + (wraps * dwordValues : Int) - (value + scaled) ∧
      ⌊h.exactValue⌋ + (wraps * dwordValues : Int) - (value + scaled) ≤ (units : ℚ) := by
  rcases off with ⟨none_, same, original⟩ | ⟨some_, low, high⟩
  · rw [h.floor_exactValue original, same, none_]
    simp
  · have below := Int.floor_le h.exactValue
    have above := Int.lt_floor_add_one h.exactValue
    constructor <;> linarith

theorem tracks_hooked (tracks : Tracks value scaled units h) (name : ClockName) :
    Tracks value scaled units (h.hooked name).1 := by
  have same : (h.hooked name).1 = h := by
    simp only [hooked, fakeOf_clock tracks.started, min_eq_right tracks.inOrder]
  rw [same]
  exact tracks

theorem tracks_applyScale (tracks : Tracks value scaled units h) (next : Scale) :
    Tracks value scaled (units + 1) (h.applyScale next) := by
  obtain ⟨wraps, off⟩ := tracks.exact_
  have rebased : (h.applyScale next).clock =
      { baseReal := h.real, baseFake := ⌊h.exactValue⌋, started := true } := by
    simp only [applyScale, rebase_started tracks.started,
      shown_eq_floor tracks.started tracks.inOrder]
  have same : (h.applyScale next).real = h.real := rfl
  refine ⟨by rw [rebased], by rw [rebased, same], wraps, .inr ⟨by omega, ?_⟩⟩
  have value_eq : (h.applyScale next).exactValue = ⌊h.exactValue⌋ := by
    simp [exactValue, rebased, same]
  obtain ⟨low, high⟩ := off.floor
  rw [value_eq]
  push_cast at low high ⊢
  constructor <;> linarith

theorem tracks_step (tracks : Tracks value scaled units h) (name : ClockName)
    (event : TickEvent) (steady : h.Steady event) :
    Tracks value (scaled + event.elapsed.toNat * h.appliedScale.val)
      (units + [event].countP TickEvent.isChange) (h.step name event) := by
  have waited := tracks_wait tracks steady
  cases event with
  | query elapsed => exact tracks_hooked waited name
  | applyScale elapsed next => exact tracks_applyScale waited next

theorem appliedScale_step (name : ClockName) (h : TickHook) (event : TickEvent) :
    (h.step name event).appliedScale = event.rateAfter h.appliedScale := by
  cases event <;> rfl

theorem tracks_run (name : ClockName) (events : List TickEvent)
    (tracks : Tracks value scaled units h) (steady : Follows (step name) Steady h events) :
    Tracks value (scaled + scaledTime h.appliedScale events)
      (units + events.countP TickEvent.isChange) (run (step name) h events) := by
  induction events generalizing h scaled units with
  | nil => simpa [run, scaledTime] using tracks
  | cons event rest ih =>
      have later := ih (tracks_step tracks name event steady.1) steady.2
      rw [appliedScale_step] at later
      have counts : (event :: rest).countP TickEvent.isChange =
          [event].countP TickEvent.isChange + rest.countP TickEvent.isChange :=
        @List.countP_append _ _ [event] rest
      rw [counts, scaledTime, ← add_assoc, ← add_assoc]
      exact later

/-- The last stretch of a run has the rate that the events before it leave. -/
theorem scaledTime_concat (name : ClockName) (h : TickHook) (events : List TickEvent)
    (last : TickEvent) :
    scaledTime h.appliedScale (events ++ [last]) = scaledTime h.appliedScale events +
      last.elapsed.toNat * (run (step name) h events).appliedScale.val := by
  induction events generalizing h with
  | nil => simp [run, scaledTime]
  | cons event rest ih =>
      have later := ih (h.step name event)
      have next : run (step name) h (event :: rest) =
          run (step name) (h.step name event) rest := rfl
      rw [appliedScale_step] at later
      rw [List.cons_append, scaledTime, scaledTime, later, next, add_assoc]

/-- The rate is the one the payload starts with until it is changed. -/
theorem appliedScale_run (name : ClockName) (events : List TickEvent)
    (unchanged : events.any TickEvent.isChange = false) :
    (run (step name) h events).appliedScale = h.appliedScale := by
  induction events generalizing h with
  | nil => rfl
  | cons event rest ih =>
      simp only [List.any_cons, Bool.or_eq_false_iff] at unchanged
      have later := @ih (h.step name event) unchanged.2
      cases event with
      | query elapsed => exact later
      | applyScale elapsed next => exact absurd unchanged.1 Bool.noConfusion

/-- An answered query is where the bookkeeping starts. -/
theorem tracks_answered (name : ClockName) {first : UInt32} (steady : h.Steady (.query first))
    (rate : Off h.appliedScale units 0) (few : units ≤ 1) :
    Tracks (shown h.clock h.appliedScale (h.wait first).real) 0 units
      (h.step name (.query first)) := by
  cases started : h.clock.started with
  | false =>
      have clock_eq : (h.step name (.query first)).clock =
          { baseReal := (h.wait first).real, baseFake := (h.wait first).real, started := true } :=
        fakeOf_unstarted started h.appliedScale (h.wait first).real
      refine ⟨by rw [clock_eq], ?_, 0, ?_⟩
      · rw [clock_eq]
        exact le_refl (h.wait first).real
      · have real_eq : (h.step name (.query first)).real = (h.wait first).real := rfl
        have exact_eq : (h.step name (.query first)).exactValue = (h.wait first).real := by
          simp [exactValue, clock_eq, real_eq]
        have scale_eq : (h.step name (.query first)).appliedScale = h.appliedScale := rfl
        rw [exact_eq, scale_eq, shown_unstarted started]
        simpa using rate
  | true =>
      have late : h.clock.baseReal ≤ (h.wait first).real := (steady started).1
      have same : h.step name (.query first) = h.wait first := by
        have clock_eq := fakeOf_clock started h.appliedScale (h.wait first).real
        rw [min_eq_right late] at clock_eq
        simp only [step, hooked, wait] at clock_eq ⊢
        rw [clock_eq]
      have floor_eq := shown_eq_floor (h := h.wait first) started late
      rw [same]
      refine ⟨started, late, 0, ?_⟩
      have clock_eq : (h.wait first).clock = h.clock := rfl
      have scale_eq : (h.wait first).appliedScale = h.appliedScale := rfl
      rw [clock_eq, scale_eq] at floor_eq
      rw [floor_eq, scale_eq]
      rcases rate with ⟨none_, _, original⟩ | ⟨some_, _, _⟩
      · refine .inl ⟨none_, ?_, original⟩
        rw [(h.wait first).floor_exactValue original]
        simp
      · have one : (units : ℚ) = 1 := by
          exact_mod_cast Nat.le_antisymm few some_
        have below := Int.floor_le (h.wait first).exactValue
        have above := Int.lt_floor_add_one (h.wait first).exactValue
        refine .inr ⟨some_, ?_, ?_⟩
        · push_cast
          linarith
        · push_cast
          linarith

theorem reported_eq {name : ClockName} (dword : name.isDword = true) (h : TickHook)
    (elapsed : UInt32) :
    h.reported name elapsed =
      shown h.clock h.appliedScale (h.wait elapsed).real % dwordValues := by
  simp only [reported, hooked, ClockName.returned, dword, if_true]
  rfl

/-- What two values are cut to differs from their difference by a multiple of 2^32. -/
theorem emod_sub_emod (second first wraps : Int) :
    second % dwordValues - first % dwordValues +
      (wraps + second / dwordValues - first / dwordValues) * dwordValues =
        second - first + wraps * dwordValues := by
  have cutSecond := Int.emod_add_mul_ediv second dwordValues
  have cutFirst := Int.emod_add_mul_ediv first dwordValues
  linarith

/-- What the bookkeeping says about the next answer. -/
theorem reported_of_tracks {name : ClockName} (dword : name.isDword = true)
    (tracks : Tracks value scaled units h) {second : UInt32} (steady : h.Steady (.query second)) :
    ∃ wraps : Int,
      |((h.reported name second - value % dwordValues + wraps * dwordValues : Int) : ℚ) -
          (scaled + second.toNat * h.appliedScale.val)| ≤ units := by
  have waited : Tracks value (scaled + second.toNat * h.appliedScale.val) units
      (h.wait second) := tracks_wait tracks steady
  obtain ⟨wraps, off⟩ := waited.exact_
  obtain ⟨low, high⟩ := off.floor
  have answer := shown_eq_floor waited.started waited.inOrder
  refine ⟨wraps + ⌊(h.wait second).exactValue⌋ / dwordValues - value / dwordValues, ?_⟩
  have same : h.reported name second = ⌊(h.wait second).exactValue⌋ % dwordValues := by
    rw [reported_eq dword, ← answer]
    rfl
  rw [same, emod_sub_emod, abs_le]
  push_cast at low high ⊢
  constructor <;> linarith

/-- Where no reading is below the base of its clock, and none comes from behind a wrap while the
rate is not a whole number, the reported value keeps to the rate. -/
theorem keepsRate_of_steady (name : ClockName) (dword : name.isDword = true) (now : UInt32)
    (before : List TickEvent) (first : UInt32) (between : List TickEvent) (second : UInt32)
    (steady : Follows (step name) Steady (mapped now)
      (before ++ .query first :: (between ++ [.query second]))) :
    KeepsRate name now before first between second := by
  have fromFirst := ((follows_append_iff _ _ _).mp steady).2
  have fromBetween := (follows_append_iff _ _ _).mp fromFirst.2
  unfold KeepsRate
  set h := run (step name) (mapped now) before with h_def
  have rate : Off h.appliedScale (if before.any TickEvent.isChange then 1 else 0) 0 := by
    cases changed : before.any TickEvent.isChange with
    | false => exact .inl ⟨rfl, rfl, appliedScale_run name before changed⟩
    | true => exact .inr ⟨le_refl 1, by norm_num, by norm_num⟩
  have start := tracks_answered name fromFirst.1 rate (by split <;> omega)
  have tracks := tracks_run name between start fromBetween.1
  have scaled_eq : scaledTime h.appliedScale (between ++ [.query second]) =
      scaledTime h.appliedScale between +
        second.toNat * (run (step name) (h.step name (.query first)) between).appliedScale.val :=
    scaledTime_concat name (h.step name (.query first)) between (.query second)
  have scale_eq : (h.step name (.query first)).appliedScale = h.appliedScale := rfl
  rw [zero_add, scale_eq] at tracks
  have advance := reported_of_tracks dword tracks fromBetween.2.1
  rw [← reported_eq dword h first, ← scaled_eq, Nat.add_comm] at advance
  exact advance

instance (h : TickHook) (event : TickEvent) : Decidable (h.Steady event) :=
  inferInstanceAs (Decidable (_ → _ ∧ _))

/-- At real time a wrap is harmless once the readings are past the base again. -/
theorem keepsRate_beyondBase :
    KeepsRate .tick32 0 [.query 5, .query 0x7fffffff] 0x7fffffe0 [.query 50] 100 :=
  keepsRate_of_steady .tick32 (by decide) 0 [.query 5, .query 0x7fffffff] 0x7fffffe0 [.query 50]
    100 (by decide +kernel)

/-- A query just before the wrap, and one a second later: the clock falls back to its first
reading, more than three weeks. -/
theorem wrap_loses_elapsed : ¬ KeepsRate .tick32 0x80000000 [.query 0] 0x7fffffff [] 1000 := by
  intro ⟨wraps, close⟩
  have first : (run (step .tick32) (mapped 0x80000000) [.query 0]).reported .tick32 0x7fffffff =
      4294967295 := by decide +kernel
  have second : (run (step .tick32) (run (step .tick32) (mapped 0x80000000) [.query 0])
      [.query 0x7fffffff]).reported .tick32 1000 = 2147483648 := by decide +kernel
  have scaled : scaledTime (run (step .tick32) (mapped 0x80000000) [.query 0]).appliedScale
      ([] ++ [.query 1000]) = 1000 := by decide +kernel
  have none_ : roundings [.query 0] [] = 0 := by decide
  rw [first, second, scaled, none_, Nat.cast_zero, abs_nonpos_iff, sub_eq_zero] at close
  have whole : (2147483648 - 4294967295 + wraps * dwordValues : Int) = 1000 := by
    exact_mod_cast close
  unfold dwordValues at whole
  omega

end TickHook

end PointerLab.SpeedHook
