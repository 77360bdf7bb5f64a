import Mathlib.Tactic.Ring
import PointerLab.SpeedHookMonotone

set_option autoImplicit false

/- How far a hooked clock goes between two readings. Every rebase rounds down, so the
roundings of any number of changes of rate together stay below one unit. -/
namespace PointerLab.SpeedHook

open Runs

namespace Payload

variable {Thread Slot : Type} [DecidableEq Thread] [DecidableEq Slot]
  {imports : Slot → ClockName} {p : Payload Thread Slot}

/-- A hooked call of the thread, which read the real clock before, returns now. -/
def Answers (imports : Slot → ClockName) (p : Payload Thread Slot) (thread : Thread)
    (slot : Slot) (real : Nat) (value : Int) : Prop :=
  p.pending thread = some (slot, real) ∧
    (p.step imports (.answer thread)).received = p.received ++ [⟨thread, slot, value⟩]

instance (imports : Slot → ClockName) (p : Payload Thread Slot) (thread : Thread)
    (slot : Slot) (real : Nat) (value : Int) :
    Decidable (Answers imports p thread slot real value) :=
  inferInstanceAs (Decidable (_ ∧ _))

theorem Answers.free {thread : Thread} {slot : Slot} {real : Nat} {value : Int}
    (answers : Answers imports p thread slot real value) : p.changing = none := by
  by_contra busy
  have stays : p.step imports (.answer thread) = p := by
    obtain ⟨change, busy⟩ := Option.ne_none_iff_exists'.mp busy
    simp only [step, answers.1, busy]
  have lengths := congrArg List.length answers.2
  rw [stays] at lengths
  simp at lengths

theorem Answers.step_eq {thread : Thread} {slot : Slot} {real : Nat} {value : Int}
    (answers : Answers imports p thread slot real value) :
    p.step imports (.answer thread) = p.answer imports thread slot real := by
  simp only [step, answers.1, answers.free]

theorem Answers.value_eq {thread : Thread} {slot : Slot} {real : Nat} {value : Int}
    (answers : Answers imports p thread slot real value) :
    value = (imports slot).returned (p.shows (imports slot) real) := by
  have replies := answers.2
  rw [answers.step_eq] at replies
  have last := List.append_cancel_left replies
  simp only [List.cons.injEq, Reply.mk.injEq, and_true, true_and] at last
  exact last.symm

/-- The rate in force is within the limit, and no hooked call brings its clock a reading
from before the clock's last rebase. -/
def Steady (name : ClockName) (imports : Slot → ClockName) (limit : ℚ)
    (p : Payload Thread Slot) (event : Event Thread Slot) : Prop :=
  p.appliedScale.val ≤ limit ∧
    match event with
    | .answer thread => ∀ slot real, p.pending thread = some (slot, real) →
        imports slot = name → (p.clocks name).baseReal ≤ real
    | _ => True

/-- What a clock still keeps of the value it reported for an earlier reading: the base is
that far at most, or the clock has not been rebased since and reports that value yet. -/
structure Within (name : ClockName) (limit : ℚ) (taken value : Int)
    (p : Payload Thread Slot) : Prop where
  started : (p.clocks name).started = true
  past : taken ≤ p.now name
  base : (taken ≤ (p.clocks name).baseReal ∧ value ≤ (p.clocks name).baseFake ∧
      ((p.clocks name).baseFake : ℚ) <
        value + 1 + limit * ((p.clocks name).baseReal - taken)) ∨
    ((p.clocks name).baseReal ≤ taken ∧ p.shows name taken = value ∧
      ∀ rest next, p.changing = some (rest, next) → name ∈ rest)

/-- The value a started clock reports is less than one unit below the exact one. -/
theorem shown_bounds {clock : Clock} (started : clock.started = true) (scale : Scale)
    {real : Int} (late : clock.baseReal ≤ real) :
    (shown clock scale real : ℚ) ≤ clock.baseFake + (real - clock.baseReal) * scale.val ∧
      clock.baseFake + (real - clock.baseReal) * scale.val < (shown clock scale real : ℚ) + 1 := by
  rw [shown_of_le started scale late]
  have low := Int.floor_le (((real - clock.baseReal : Int) : ℚ) * scale.val)
  have high := Int.lt_floor_add_one (((real - clock.baseReal : Int) : ℚ) * scale.val)
  push_cast at low high ⊢
  constructor <;> linarith

omit [DecidableEq Thread] [DecidableEq Slot] in
/-- From the bases of an unbroken stretch, a later reading is reported within the limit. -/
theorem Within.shows_lt {name : ClockName} {limit : ℚ} {taken value real : Int}
    (within : Within name limit taken value p) (slow : p.appliedScale.val ≤ limit)
    (inOrder : taken ≤ real) (late : (p.clocks name).baseReal ≤ real) :
    value ≤ p.shows name real ∧
      (p.shows name real : ℚ) < value + 1 + limit * (real - taken) := by
  have top := (shown_bounds within.started p.appliedScale late).1
  rcases within.base with ⟨after, low, high⟩ | ⟨before, same, _⟩
  · refine ⟨le_trans low (base_le_shown within.started _ _), ?_⟩
    have further : ((real : ℚ) - (p.clocks name).baseReal) * p.appliedScale.val ≤
        ((real : ℚ) - (p.clocks name).baseReal) * limit := by
      apply mul_le_mul_of_nonneg_left slow
      exact sub_nonneg.mpr (by exact_mod_cast late)
    unfold shows
    linarith
  · refine ⟨same ▸ shown_mono _ _ inOrder, ?_⟩
    have bottom := (shown_bounds within.started p.appliedScale before).2
    have further : ((real : ℚ) - taken) * p.appliedScale.val ≤ ((real : ℚ) - taken) * limit := by
      apply mul_le_mul_of_nonneg_left slow
      exact sub_nonneg.mpr (by exact_mod_cast inOrder)
    rw [← same]
    unfold shows
    linarith

section

variable {name : ClockName} {limit : ℚ} {taken value : Int}

omit [DecidableEq Thread] [DecidableEq Slot] in
/-- It is about the clock, the time, the rate and the change under way. -/
theorem Within.of_same (within : Within name limit taken value p) {q : Payload Thread Slot}
    (clocks : q.clocks name = p.clocks name) (now : p.now name ≤ q.now name)
    (scale : q.appliedScale = p.appliedScale) (changing : q.changing = p.changing) :
    Within name limit taken value q := by
  constructor
  · rw [clocks]
    exact within.started
  · exact le_trans within.past (Int.ofNat_le.mpr now)
  · unfold shows
    rw [clocks, scale, changing]
    exact within.base

theorem within_call (within : Within name limit taken value p) (thread : Thread)
    (slot : Slot) : Within name limit taken value (p.step imports (.call thread slot)) := by
  simp only [step]
  split
  · exact within
  · unfold call
    split
    · split
      · exact within.of_same rfl (le_refl _) rfl rfl
      · cases imports slot <;> exact within.of_same rfl (le_refl _) rfl rfl
    · exact within.of_same rfl (le_refl _) rfl rfl

/-- A reading that is not older than the base leaves the clock as it is. -/
theorem within_answer (within : Within name limit taken value p) (thread : Thread)
    (steady : p.Steady name imports limit (.answer thread)) :
    Within name limit taken value (p.step imports (.answer thread)) := by
  simp only [step]
  split
  · rename_i slot real waits free
    refine within.of_same ?_ (le_refl _) rfl rfl
    by_cases same : imports slot = name
    · have late := steady.2 slot real waits same
      subst same
      simp only [answer, Function.update_self]
      rw [fakeOf_clock within.started, min_eq_right late]
    · simp [answer, Ne.symm same]
  · exact within

theorem within_beginChange (within : Within name limit taken value p) (next : Scale) :
    Within name limit taken value (p.step imports (.beginChange next)) := by
  simp only [step]
  split
  · exact within
  · refine ⟨within.started, within.past, ?_⟩
    rcases within.base with after | ⟨before, same, _⟩
    · exact .inl after
    · refine .inr ⟨before, same, ?_⟩
      intro rest after equal
      simp only [Option.some.injEq, Prod.mk.injEq] at equal
      rw [← equal.1]
      cases name <;> simp [clockNames]

omit [DecidableEq Thread] [DecidableEq Slot] in
/-- Its rebase carries the clock on from what it reports now. -/
theorem within_rebase (within : Within name limit taken value p) (sound : Sound imports p)
    (slow : p.appliedScale.val ≤ limit) {rest : List ClockName} {next : Scale}
    (changing : p.changing = some (name :: rest, next)) :
    Within name limit taken value p.goOnChanging := by
  obtain ⟨low, high⟩ := within.shows_lt slow within.past (sound.basePast within.started)
  unfold goOnChanging
  simp only [changing]
  refine ⟨?_, within.past, .inl ?_⟩
  · simp [rebase_started within.started]
  · simp only [Function.update_self, rebase_started within.started,
      sound.read_started within.started]
    exact ⟨within.past, low, high⟩

theorem within_goOnChanging (within : Within name limit taken value p)
    (sound : Sound imports p) (slow : p.appliedScale.val ≤ limit) :
    Within name limit taken value (p.step imports .goOnChanging) := by
  simp only [step]
  rcases changing : p.changing with _ | ⟨_ | ⟨other, rest⟩, next⟩
  · unfold goOnChanging
    simp only [changing]
    exact within
  · unfold goOnChanging
    simp only [changing]
    refine ⟨within.started, within.past, ?_⟩
    rcases within.base with after | ⟨_, _, remains⟩
    · exact .inl after
    · exact absurd (remains [] next changing) List.not_mem_nil
  · by_cases same : other = name
    · subst same
      exact within_rebase within sound slow changing
    · have kept : Function.update p.clocks other (rebase (p.clocks other) (p.read other)
          p.appliedScale) name = p.clocks name := by
        simp [Ne.symm same]
      unfold goOnChanging
      simp only [changing]
      refine ⟨?_, within.past, ?_⟩
      · simp only [kept]
        exact within.started
      · simp only [shows, kept]
        rcases within.base with after | ⟨before, equal, remains⟩
        · exact .inl after
        · refine .inr ⟨before, equal, ?_⟩
          intro later after parts
          simp only [Option.some.injEq, Prod.mk.injEq] at parts
          rcases List.mem_cons.mp (remains (other :: rest) next changing) with here | there
          · exact absurd here.symm same
          · exact parts.1 ▸ there

theorem within_step (within : Within name limit taken value p) (sound : Sound imports p)
    (event : Event Thread Slot) (steady : p.Steady name imports limit event) :
    Within name limit taken value (p.step imports event) := by
  cases event with
  | elapse other amount =>
      simp only [step]
      split
      · exact within
      · refine within.of_same rfl ?_ rfl rfl
        by_cases same : name = other
        · subst same
          simp
        · simp [same]
  | call thread slot => exact within_call within thread slot
  | answer thread => exact within_answer within thread steady
  | beginChange next => exact within_beginChange within next
  | goOnChanging => exact within_goOnChanging within sound steady.1
  | patch slot =>
      simp only [step]
      split <;> exact within.of_same rfl (le_refl _) rfl rfl
  | restore slot =>
      simp only [step]
      split <;> exact within.of_same rfl (le_refl _) rfl rfl
  | find other => exact within.of_same rfl (le_refl _) rfl rfl

/-- The answer itself: the clock reports its value for its reading. -/
theorem within_answered {thread : Thread} {slot : Slot} {real : Nat} {value : Int}
    (sound : Sound imports p) (answers : Answers imports p thread slot real value) :
    Within (imports slot) limit real (p.shows (imports slot) real)
      (p.step imports (.answer thread)) := by
  have same := shown_answered (p.clocks (imports slot)) p.appliedScale real
  rw [answers.step_eq]
  have base : ((fakeOf (p.clocks (imports slot)) real p.appliedScale).1).baseReal ≤ real := by
    cases started : (p.clocks (imports slot)).started with
    | false => rw [fakeOf_unstarted started]
    | true =>
        rw [fakeOf_clock started]
        exact min_le_left _ _
  constructor
  · simp [answer]
  · exact Int.ofNat_le.mpr (sound.pendingPast answers.1)
  · refine .inr ⟨?_, ?_, ?_⟩
    · simpa [answer] using base
    · simpa [answer, shows] using same
    · intro rest next changing
      exact absurd (answers.free.symm.trans changing) (by simp)

end

theorem returned_sub_le (name : ClockName) {low high : Int} (inOrder : low ≤ high) :
    name.returned high - name.returned low ≤ high - low := by
  unfold ClockName.returned
  split
  · unfold dwordValues
    omega
  · exact le_refl _

omit [DecidableEq Thread] [DecidableEq Slot] in
/-- A change of rate moves no clock: at the reading it takes, the clock it comes to reports
under any later rate what it reported under the rate before. -/
theorem shown_goOnChanging (sound : Sound imports p) {name : ClockName}
    {rest : List ClockName} {next : Scale} (changing : p.changing = some (name :: rest, next))
    (rate : Scale) :
    shown (p.goOnChanging.clocks name) rate (p.now name) = p.shows name (p.now name) := by
  unfold goOnChanging shows
  simp only [changing, Function.update_self]
  cases started : (p.clocks name).started with
  | false => simp [started]
  | true =>
      rw [sound.read_started started]
      exact shown_rebase _ _ _ _

theorem sound_run (sound : Sound imports p) (events : List (Event Thread Slot)) :
    Sound imports (run (step imports) p events) :=
  (follows_true (step imports) p events).reached.invariant sound
    fun _ event sound _ => sound_step sound event

/-- Two answers of one clock, with no reading between them from before a rebase. -/
theorem advance_lt (sound : Sound imports p) {between : List (Event Thread Slot)}
    {limit : ℚ} {first second : Thread} {slot₁ slot₂ : Slot} {real₁ real₂ : Nat}
    {value₁ value₂ : Int} (same : imports slot₂ = imports slot₁) (inOrder : real₁ ≤ real₂)
    (answers₁ : Answers imports p first slot₁ real₁ value₁)
    (steady : Follows (step imports) (Steady (imports slot₁) imports limit)
      (p.step imports (.answer first)) (between ++ [.answer second]))
    (answers₂ : Answers imports (run (step imports) p (.answer first :: between)) second slot₂
      real₂ value₂) :
    ((value₂ - value₁ : Int) : ℚ) < limit * (real₂ - real₁) + 1 := by
  have startedWithin : Within (imports slot₁) limit real₁ (p.shows (imports slot₁) real₁)
      (p.step imports (.answer first)) := within_answered sound answers₁
  have part : Follows (step imports) (Steady (imports slot₁) imports limit)
      (p.step imports (.answer first)) between := steady.take_part (List.prefix_append _ _)
  have along := @Reached.invariant _ _ _ _ _ _
    (fun q => Within (imports slot₁) limit real₁ (p.shows (imports slot₁) real₁) q ∧
      Sound imports q) part.reached ⟨startedWithin, sound_step sound _⟩ (by
      intro before event holds meets
      exact ⟨within_step holds.1 holds.2 event meets, sound_step holds.2 event⟩)
  have lastStep := (follows_iff_forall _ _).mp steady between (.answer second) List.prefix_rfl
  have late := lastStep.2 slot₂ real₂ answers₂.1 same
  obtain ⟨low, high⟩ := along.1.shows_lt lastStep.1 (Int.ofNat_le.mpr inOrder) late
  have cut := returned_sub_le (imports slot₁) low
  have value₁_eq := answers₁.value_eq
  have value₂_eq := answers₂.value_eq
  rw [same] at value₂_eq
  have runs : run (step imports) p (.answer first :: between) =
      run (step imports) (p.step imports (.answer first)) between := rfl
  rw [runs] at value₂_eq
  rw [← value₁_eq, ← value₂_eq] at cut
  have bound : ((value₂ - value₁ : Int) : ℚ) ≤
      (((run (step imports) (p.step imports (.answer first)) between).shows (imports slot₁)
        real₂ - p.shows (imports slot₁) real₁ : Int) : ℚ) := by
    exact_mod_cast cut
  push_cast at bound high ⊢
  linarith

/-- The bound with one unit for each change of rate, and none for the rounding. -/
def AdvancesBy (imports : Slot → ClockName) (p : Payload Thread Slot) (thread : Thread)
    (between : List (Event Thread Slot)) : Prop :=
  ∀ slot real₁ real₂ value₁ value₂ limit,
    Answers imports p thread slot real₁ value₁ →
    Answers imports (run (step imports) p (.answer thread :: between)) thread slot real₂
      value₂ →
    Follows (step imports) (fun q _ => q.appliedScale.val ≤ limit)
      (p.step imports (.answer thread)) (between ++ [.answer thread]) →
    ((value₂ - value₁ : Int) : ℚ) ≤
      limit * (real₂ - real₁) + (between.countP Event.isChange : ℕ)

end Payload

/-- Between two answers the reported time goes on by less than the highest rate in force
allows and one unit more, as long as no reading from before a clock's last rebase arrives;
and no change of rate moves a clock. -/
theorem reported_time_advance {Thread Slot : Type} [DecidableEq Thread] [DecidableEq Slot]
    (imports : Slot → ClockName) (now : ClockName → Nat) (found : ClockName → Bool)
    (redirected : Slot → Bool) (before : List (Event Thread Slot)) :
    let p := run (Payload.step imports) (loaded now found redirected) before
    (∀ between limit first second slot₁ slot₂ real₁ real₂ value₁ value₂,
      imports slot₂ = imports slot₁ → real₁ ≤ real₂ →
      p.Answers imports first slot₁ real₁ value₁ →
      Follows (Payload.step imports) (Payload.Steady (imports slot₁) imports limit)
        (p.step imports (.answer first)) (between ++ [.answer second]) →
      (run (Payload.step imports) p (.answer first :: between)).Answers imports second slot₂
        real₂ value₂ →
      ((value₂ - value₁ : Int) : ℚ) < limit * (real₂ - real₁) + 1) ∧
    (∀ name rest next, p.changing = some (name :: rest, next) → ∀ rate,
      shown ((p.step imports .goOnChanging).clocks name) rate (p.now name) =
        p.shows name (p.now name)) := by
  have start : Payload.Sound imports (loaded now found redirected : Payload Thread Slot) :=
    Payload.sound_loaded now found redirected
  have sound := Payload.sound_run start before
  constructor
  · intro between limit first second slot₁ slot₂ real₁ real₂ value₁ value₂ same inOrder
      answers₁ steady answers₂
    exact Payload.advance_lt sound same inOrder answers₁ steady answers₂
  · intro name rest next changing rate
    exact Payload.shown_goOnChanging sound changing rate

/-- A change to another rate, from its lock to its release. -/
def changeOfRate (next : Scale) : List (Event Bool ClockName) :=
  [.beginChange next, .goOnChanging, .goOnChanging, .goOnChanging, .goOnChanging,
    .goOnChanging]

def atZero : Payload Bool ClockName := loaded (fun _ => 0) (fun _ => true) fun _ => true

/-- One thread, at half the rate: its readings are 1 and 2. -/
def atHalfRate : List (Event Bool ClockName) :=
  [.call true .qpc, .answer true] ++ changeOfRate ⟨1 / 2, by norm_num⟩ ++
    [.elapse .qpc 1, .call true .qpc]

theorem reported_time_advance_atHalfRate :
    ((1 - 0 : Int) : ℚ) < 1 / 2 * ((2 : ℕ) - (1 : ℕ)) + 1 := by
  refine (reported_time_advance id (fun _ => 0) (fun _ => true) (fun _ => true)
    atHalfRate).1 [.elapse .qpc 1, .call true .qpc] (1 / 2) true true .qpc .qpc 1 2 0 1 rfl
    (by decide) (by decide +kernel) ?_ (by decide +kernel)
  refine ⟨⟨by decide +kernel, trivial⟩, ⟨by decide +kernel, trivial⟩,
    ⟨by decide +kernel, ?_⟩, trivial⟩
  intro slot real waits _
  have reads : some (ClockName.qpc, 2) = some (slot, real) := waits
  simp only [Option.some.injEq, Prod.mk.injEq] at reads
  rw [← reads.2]
  decide +kernel

/-- Another thread has read the clock before the change to the double rate, and answers
after it, between the readings 1000 and 1001. -/
def beforeLateReading : List (Event Bool ClockName) :=
  [.call true .qpc, .answer true, .call false .qpc, .elapse .qpc 1000] ++
    changeOfRate ⟨2, by norm_num⟩ ++ [.call true .qpc]

theorem advance_exceeds :
    ¬ (run (Payload.step id) atZero atHalfRate).AdvancesBy id true
        [.elapse .qpc 1, .call true .qpc] ∧
      ¬ (run (Payload.step id) atZero beforeLateReading).AdvancesBy id true
        [.answer false, .elapse .qpc 1, .call true .qpc] := by
  constructor
  · intro bound
    have exceeds := bound .qpc 1 2 0 1 (1 / 2) (by decide +kernel) (by decide +kernel)
      (by decide +kernel)
    norm_num [List.countP, List.countP.go, Event.isChange] at exceeds
  · intro bound
    have exceeds := bound .qpc 1000 1001 1000 3002 2 (by decide +kernel) (by decide +kernel)
      (by decide +kernel)
    norm_num [List.countP, List.countP.go, Event.isChange] at exceeds

end PointerLab.SpeedHook
