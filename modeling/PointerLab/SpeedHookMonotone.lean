import PointerLab.SpeedHook

set_option autoImplicit false

/- No thread sees a hooked clock go back. The values it has are kept below what the clock
reports for its reading while it waits for the lock, and below what it reports now while
it does not. -/
namespace PointerLab.SpeedHook

open Runs

namespace Payload

variable {Thread Slot : Type}

variable {imports : Slot → ClockName} {p : Payload Thread Slot} {thread : Thread} {slot : Slot}

/-- What the clock a slot asks reports for a reading. -/
def shows [Doubles] (p : Payload Thread Slot) (name : ClockName) (real : Int) : Int :=
  shown (p.clocks name) p.appliedScale real

/-- The thread may still get a value from the hook of the slot. -/
def AtHook (p : Payload Thread Slot) (thread : Thread) (slot : Slot) : Prop :=
  p.redirected slot = true ∨ ∃ real, p.pending thread = some (slot, real)

/-- What holds of the readings and the bases in every state. -/
structure Sound (imports : Slot → ClockName) (p : Payload Thread Slot) : Prop where
  pendingPast : ∀ {thread slot real}, p.pending thread = some (slot, real) →
    real ≤ p.now (imports slot)
  pendingFound : ∀ {thread slot real}, p.pending thread = some (slot, real) →
    p.found (imports slot) = true
  startedFound : ∀ {name}, (p.clocks name).started = true → p.found name = true
  basePast : ∀ {name}, (p.clocks name).started = true →
    (p.clocks name).baseReal ≤ p.now name
  fakeNonneg : ∀ {name}, (p.clocks name).started = true → 0 ≤ (p.clocks name).baseFake

theorem returned_eq {name : ClockName} {fake : Int} (nonneg : 0 ≤ fake)
    (narrow : name.isDword = true → fake < dwordValues) : name.returned fake = fake := by
  unfold ClockName.returned
  split
  · rename_i dword
    exact Int.emod_eq_of_lt nonneg (narrow dword)
  · rfl

theorem sound_loaded (now : ClockName → Nat) (found : ClockName → Bool)
    (redirected : Slot → Bool) :
    Sound imports (loaded now found redirected : Payload Thread Slot) where
  pendingPast := by simp [loaded]
  pendingFound := by simp [loaded]
  startedFound := by simp [loaded]
  basePast := by simp [loaded]
  fakeNonneg := by simp [loaded]

theorem Sound.read_started (sound : Sound imports p) {name : ClockName}
    (started : (p.clocks name).started = true) : p.read name = p.now name := by
  simp [read, sound.startedFound started]

theorem sound_receive (sound : Sound imports p) (thread : Thread) (slot : Slot) (value : Int) :
    Sound imports (p.receive thread slot value) := { sound with }

theorem sound_refuse (sound : Sound imports p) (thread : Thread) (slot : Slot)
    (name : ClockName) : Sound imports (p.refuse thread slot name) := by
  cases name <;> exact { sound with }

section Values

variable [DecidableEq Thread] [DecidableEq Slot]

/-- No value the thread has received through the slot is above the bound. -/
def UpTo (p : Payload Thread Slot) (thread : Thread) (slot : Slot) (bound : Int) : Prop :=
  ∀ value ∈ p.valuesOf thread slot, value ≤ bound

theorem UpTo.mono {low high : Int} (below : p.UpTo thread slot low) (inOrder : low ≤ high) :
    p.UpTo thread slot high :=
  fun value member => le_trans (below value member) inOrder

@[simp] theorem valuesOf_receive (p : Payload Thread Slot) (thread : Thread) (slot : Slot)
    (value : Int) : (p.receive thread slot value).valuesOf thread slot =
      p.valuesOf thread slot ++ [value] := by
  simp [valuesOf, receive]

theorem valuesOf_receive_other (p : Payload Thread Slot) {thread other : Thread}
    {slot at_ : Slot} (apart : ¬ (other = thread ∧ at_ = slot)) (value : Int) :
    (p.receive other at_ value).valuesOf thread slot = p.valuesOf thread slot := by
  simp [valuesOf, receive, List.filter_append, apart]

/-- One more value, above all there were, keeps a list in order. -/
theorem sorted_append {values : List Int} {value : Int} (sorted : values.Pairwise (· ≤ ·))
    (above : ∀ earlier ∈ values, earlier ≤ value) :
    (values ++ [value]).Pairwise (· ≤ ·) := by
  rw [List.pairwise_append]
  refine ⟨sorted, List.pairwise_singleton _ _, ?_⟩
  intro earlier member last isLast
  rw [List.mem_singleton.mp isLast]
  exact above earlier member

theorem upTo_receive {value bound : Int} (below : p.UpTo thread slot value)
    (last : value ≤ bound) : (p.receive thread slot value).UpTo thread slot bound := by
  intro earlier member
  rw [valuesOf_receive] at member
  rcases List.mem_append.mp member with before | isLast
  · exact le_trans (below earlier before) last
  · rw [List.mem_singleton.mp isLast]
    exact last

end Values

variable [Doubles]

/-- Where the steps of one slot have to be careful. A hook that is entered or left must not
jump: its clock is not behind the real one when the slot is patched, and not ahead of it
when the slot is restored or a call returns through a restored slot. A 32-bit clock does
not wrap. -/
def Meets (imports : Slot → ClockName) (slot : Slot) (p : Payload Thread Slot) :
    Event Thread Slot → Prop
  | .answer thread => ∀ real, p.pending thread = some (slot, real) →
      (p.redirected slot = false →
        p.shows (imports slot) (p.now (imports slot)) ≤ p.now (imports slot)) ∧
      ((imports slot).isDword = true → p.shows (imports slot) real < dwordValues)
  | .patch at_ => at_ = slot →
      p.found (imports slot) = true ∧
      (p.now (imports slot) : Int) ≤ p.shows (imports slot) (p.now (imports slot)) ∧
      ((p.clocks (imports slot)).started = false →
        ∀ thread place real, p.pending thread = some (place, real) →
          imports place ≠ imports slot)
  | .restore at_ => at_ = slot → p.redirected slot = true →
      p.shows (imports slot) (p.now (imports slot)) ≤ p.now (imports slot)
  | _ => True

theorem Sound.shows_nonneg [Doubles.Ordered] (sound : Sound imports p) {name : ClockName}
    (started : (p.clocks name).started = true) (real : Int) : 0 ≤ p.shows name real :=
  le_trans (sound.fakeNonneg started) (base_le_shown started _ real)

theorem sound_goOnChanging [Doubles.Ordered] (sound : Sound imports p) :
    Sound imports p.goOnChanging := by
  unfold goOnChanging
  split
  · exact sound
  · exact { sound with }
  · rename_i name rest next changing
    have keeps : ∀ {other}, ((Function.update p.clocks name
        (rebase (p.clocks name) (p.read name) p.appliedScale)) other).started = true →
        (p.clocks other).started = true := by
      intro other started
      by_cases same : other = name
      · subst same
        by_contra fresh
        rw [Bool.not_eq_true] at fresh
        rw [Function.update_self, rebase_unstarted fresh, fresh] at started
        contradiction
      · simpa [same] using started
    refine { sound with startedFound := ?_, basePast := ?_, fakeNonneg := ?_ }
    · intro other started
      exact sound.startedFound (keeps started)
    · intro other started
      have before := keeps started
      by_cases same : other = name
      · subst same
        simp only [Function.update_self, rebase_started before, sound.read_started before]
        exact le_refl _
      · simpa [same] using sound.basePast before
    · intro other started
      have before := keeps started
      by_cases same : other = name
      · subst same
        simp only [Function.update_self, rebase_started before]
        exact sound.shows_nonneg before _
      · simpa [same] using sound.fakeNonneg before

variable [DecidableEq Thread] [DecidableEq Slot]

theorem sound_elapse (sound : Sound imports p) (name : ClockName) (amount : Nat) :
    Sound imports (p.step imports (.elapse name amount)) := by
  simp only [step]
  split
  · exact sound
  · have grows : ∀ other, p.now other ≤
        Function.update p.now name (p.now name + amount) other := by
      intro other
      by_cases same : other = name
      · subst same
        simp
      · simp [same]
    refine { sound with pendingPast := ?_, basePast := ?_ }
    · intro thread slot real waits
      exact le_trans (sound.pendingPast waits) (grows _)
    · intro other started
      exact le_trans (sound.basePast started) (by exact_mod_cast grows other)

theorem sound_call (sound : Sound imports p) (thread : Thread) (slot : Slot) :
    Sound imports (p.step imports (.call thread slot)) := by
  simp only [step]
  split
  · exact sound
  · unfold call
    split
    · split
      · rename_i found
        refine { sound with pendingPast := ?_, pendingFound := ?_ }
        · intro other at_ real waits
          by_cases same : other = thread
          · subst same
            obtain ⟨rfl, rfl⟩ : slot = at_ ∧ p.now (imports slot) = real := by
              simpa using waits
            exact le_refl _
          · exact sound.pendingPast (by simpa [same] using waits)
        · intro other at_ real waits
          by_cases same : other = thread
          · subst same
            obtain ⟨rfl, rfl⟩ : slot = at_ ∧ p.now (imports slot) = real := by
              simpa using waits
            exact found
          · exact sound.pendingFound (by simpa [same] using waits)
      · exact sound_refuse sound thread slot _
    · exact sound_receive sound thread slot _

theorem sound_answer (sound : Sound imports p) (thread : Thread) :
    Sound imports (p.step imports (.answer thread)) := by
  simp only [step]
  split
  · rename_i slot real waits free
    have past := sound.pendingPast waits
    have still : ∀ {other at_ taken}, (p.answer imports thread slot real).pending other =
        some (at_, taken) → p.pending other = some (at_, taken) := by
      intro other at_ taken waiting
      by_cases same : other = thread
      · simp [answer, same] at waiting
      · simpa [answer, same] using waiting
    have keeps : ∀ {name}, name ≠ imports slot →
        (p.answer imports thread slot real).clocks name = p.clocks name := by
      intro name other
      simp [answer, other]
    refine ⟨fun waiting => sound.pendingPast (still waiting),
      fun waiting => sound.pendingFound (still waiting), ?_, ?_, ?_⟩
    · intro name started
      by_cases same : name = imports slot
      · rw [same]
        exact sound.pendingFound waits
      · exact sound.startedFound (keeps same ▸ started)
    · intro name started
      by_cases same : name = imports slot
      · subst same
        simp only [answer, Function.update_self]
        cases before : (p.clocks (imports slot)).started with
        | false =>
            rw [fakeOf_unstarted before]
            exact Int.ofNat_le.mpr past
        | true =>
            rw [fakeOf_clock before]
            exact le_trans (min_le_right _ _) (sound.basePast before)
      · rw [keeps same]
        exact sound.basePast (keeps same ▸ started)
    · intro name started
      by_cases same : name = imports slot
      · subst same
        simp only [answer, Function.update_self]
        cases before : (p.clocks (imports slot)).started with
        | false =>
            rw [fakeOf_unstarted before]
            exact Int.natCast_nonneg real
        | true =>
            rw [fakeOf_clock before]
            exact sound.fakeNonneg before
      · rw [keeps same]
        exact sound.fakeNonneg (keeps same ▸ started)
  · exact sound

theorem sound_step [Doubles.Ordered] (sound : Sound imports p) (event : Event Thread Slot) :
    Sound imports (p.step imports event) := by
  cases event with
  | elapse name amount => exact sound_elapse sound name amount
  | call thread slot => exact sound_call sound thread slot
  | answer thread => exact sound_answer sound thread
  | beginChange next =>
      simp only [step]
      split <;> exact { sound with }
  | goOnChanging => exact sound_goOnChanging sound
  | patch slot =>
      simp only [step]
      split <;> exact { sound with }
  | restore slot =>
      simp only [step]
      split <;> exact { sound with }
  | find name =>
      have still : ∀ other, p.found other = true →
          Function.update p.found name true other = true := by
        intro other found
        by_cases same : other = name
        · simp [same]
        · simpa [same] using found
      exact { sound with
        pendingFound := fun waits => still _ (sound.pendingFound waits)
        startedFound := fun started => still _ (sound.startedFound started) }

/-- The values of a thread at a slot are in order, and every value it may get next is at
least as late. -/
structure InOrder (imports : Slot → ClockName) (thread : Thread) (slot : Slot)
    (p : Payload Thread Slot) : Prop where
  sorted : (p.valuesOf thread slot).Pairwise (· ≤ ·)
  waiting : ∀ real, (p.clocks (imports slot)).started = true →
    p.pending thread = some (slot, real) → p.UpTo thread slot (p.shows (imports slot) real)
  hooked : (p.clocks (imports slot)).started = true → p.redirected slot = true →
    p.UpTo thread slot (p.shows (imports slot) (p.now (imports slot)))
  direct : p.redirected slot = false ∨ (p.clocks (imports slot)).started = false →
    p.UpTo thread slot (p.now (imports slot))
  /-- Whichever call starts the clock, it starts it late enough. -/
  unstarted : (p.clocks (imports slot)).started = false → p.AtHook thread slot →
    ∀ other at_ real, p.pending other = some (at_, real) → imports at_ = imports slot →
      p.UpTo thread slot real
  /-- A clock that waits for its new rate has been rebased above all of them. -/
  rebased : (p.clocks (imports slot)).started = true → p.AtHook thread slot →
    ∀ rest next, p.changing = some (rest, next) → imports slot ∉ rest →
      p.UpTo thread slot (p.clocks (imports slot)).baseFake
  refused : p.redirected slot = true → p.found (imports slot) = false →
    p.UpTo thread slot 0

theorem inOrder_loaded (now : ClockName → Nat) (found : ClockName → Bool)
    (redirected : Slot → Bool) :
    InOrder imports thread slot (loaded now found redirected) where
  sorted := List.Pairwise.nil
  waiting := by simp [loaded]
  hooked := by simp [loaded]
  direct := fun _ value member => absurd member List.not_mem_nil
  unstarted := by simp [loaded]
  rebased := by simp [loaded]
  refused := fun _ _ value member => absurd member List.not_mem_nil

/-- The real clock may go on at any moment. -/
theorem inOrder_elapse [Doubles.Ordered] (inOrder : InOrder imports thread slot p) (name : ClockName)
    (amount : Nat) : InOrder imports thread slot (p.step imports (.elapse name amount)) := by
  simp only [step]
  split
  · exact inOrder
  · have grows : (p.now (imports slot) : Int) ≤
        Function.update p.now name (p.now name + amount) (imports slot) := by
      by_cases same : imports slot = name
      · rw [same]
        simp
      · simp [same]
    exact { inOrder with
      hooked := fun started redirected =>
        (inOrder.hooked started redirected).mono (shown_mono _ _ grows)
      direct := fun either => (inOrder.direct either).mono grows }

/-- A reply that belongs to another thread or another slot. -/
theorem inOrder_receive_other (inOrder : InOrder imports thread slot p) {other : Thread}
    {at_ : Slot} (apart : ¬ (other = thread ∧ at_ = slot)) (value : Int) :
    InOrder imports thread slot (p.receive other at_ value) := by
  have same := valuesOf_receive_other p apart value
  obtain ⟨sorted, waiting, hooked, direct, unstarted, rebased, refused⟩ := inOrder
  constructor
  · rw [same]
    exact sorted
  all_goals unfold UpTo; rw [same]; assumption

/-- The hook of a clock whose real function is not known returns zero, or no value. -/
theorem inOrder_refuse (inOrder : InOrder imports thread slot p) (sound : Sound imports p)
    {other : Thread} {at_ : Slot} (redirected : p.redirected at_ = true)
    (missing : p.found (imports at_) = false) :
    InOrder imports thread slot (p.refuse other at_ (imports at_)) := by
  have zero : InOrder imports thread slot (p.receive other at_ 0) := by
    by_cases mine : other = thread ∧ at_ = slot
    · obtain ⟨rfl, rfl⟩ := mine
      have fresh : (p.clocks (imports at_)).started = false := by
        by_contra started
        rw [Bool.not_eq_false] at started
        simp [sound.startedFound started] at missing
      have below := inOrder.refused redirected missing
      constructor
      · rw [valuesOf_receive]
        exact sorted_append inOrder.sorted below
      · intro real started
        exact absurd started (by simp [receive, fresh])
      · intro started
        exact absurd started (by simp [receive, fresh])
      · exact fun _ => upTo_receive below (Int.natCast_nonneg _)
      · exact fun _ _ _ _ real _ _ => upTo_receive below (Int.natCast_nonneg real)
      · intro started
        exact absurd started (by simp [receive, fresh])
      · exact fun _ _ => upTo_receive below (le_refl _)
    · exact inOrder_receive_other inOrder mine 0
  cases imports at_ with
  | qpc => exact inOrder
  | tick32 => exact zero
  | tick64 => exact zero
  | mmTime => exact zero

/-- The real function returns what the real clock shows. -/
theorem inOrder_direct (inOrder : InOrder imports thread slot p) {other : Thread} {at_ : Slot}
    (free : p.pending other = none) (restored : p.redirected at_ = false) :
    InOrder imports thread slot (p.receive other at_ (p.now (imports at_))) := by
  by_cases mine : other = thread ∧ at_ = slot
  · obtain ⟨rfl, rfl⟩ := mine
    have below := inOrder.direct (.inl restored)
    have away : ¬ (p.receive other at_ (p.now (imports at_))).AtHook other at_ := by
      rintro (redirected | ⟨real, waits⟩)
      · simp [receive, restored] at redirected
      · simp [receive, free] at waits
    constructor
    · rw [valuesOf_receive]
      exact sorted_append inOrder.sorted below
    · intro real _ waits
      exact absurd (.inr ⟨real, waits⟩) away
    · intro _ redirected
      exact absurd (.inl redirected) away
    · exact fun _ => upTo_receive below (le_refl _)
    · exact fun _ atHook => absurd atHook away
    · exact fun _ atHook => absurd atHook away
    · intro redirected
      exact absurd (.inl redirected) away
  · exact inOrder_receive_other inOrder mine _

/-- A hook that has read the real clock and waits for the lock. -/
theorem inOrder_read (inOrder : InOrder imports thread slot p) {other : Thread} {at_ : Slot}
    (redirected : p.redirected at_ = true) :
    InOrder imports thread slot
      { p with pending :=
          Function.update p.pending other (some (at_, p.now (imports at_))) } := by
  have before : ∀ real,
      Function.update p.pending other (some (at_, p.now (imports at_))) thread =
        some (slot, real) →
      (at_ = slot ∧ real = p.now (imports slot)) ∨ p.pending thread = some (slot, real) := by
    intro real waits
    by_cases mine : thread = other
    · subst mine
      obtain ⟨rfl, rfl⟩ : at_ = slot ∧ p.now (imports at_) = real := by simpa using waits
      exact .inl ⟨rfl, rfl⟩
    · exact .inr (by simpa [mine] using waits)
  have atHook : Payload.AtHook
        ({ p with pending :=
            Function.update p.pending other (some (at_, p.now (imports at_))) }) thread slot →
      p.AtHook thread slot := by
    rintro (already | ⟨real, waits⟩)
    · exact .inl already
    · rcases before real waits with ⟨rfl, _⟩ | waited
      · exact .inl redirected
      · exact .inr ⟨real, waited⟩
  refine { inOrder with waiting := ?_, unstarted := ?_, rebased := ?_ }
  · intro real started waits
    rcases before real waits with ⟨rfl, rfl⟩ | waited
    · exact inOrder.hooked started redirected
    · exact inOrder.waiting real started waited
  · intro fresh nowAtHook third place real waits same
    by_cases last : third = other
    · subst last
      obtain ⟨rfl, rfl⟩ : at_ = place ∧ p.now (imports at_) = real := by simpa using waits
      rw [same]
      exact inOrder.direct (.inr fresh)
    · exact inOrder.unstarted fresh (atHook nowAtHook) third place real
        (by simpa [last] using waits) same
  · exact fun started nowAtHook => inOrder.rebased started (atHook nowAtHook)

theorem inOrder_call (inOrder : InOrder imports thread slot p) (sound : Sound imports p)
    (other : Thread) (at_ : Slot) :
    InOrder imports thread slot (p.step imports (.call other at_)) := by
  simp only [step]
  split
  · exact inOrder
  · rename_i free
    unfold call
    split
    · rename_i redirected
      split
      · exact inOrder_read inOrder redirected
      · rename_i missing
        exact inOrder_refuse inOrder sound redirected (by simpa using missing)
    · rename_i restored
      exact inOrder_direct inOrder free (by simpa using restored)

/-- What a hook leaves behind besides its reply. -/
def unlock (imports : Slot → ClockName) (p : Payload Thread Slot) (thread : Thread)
    (slot : Slot) (real : Nat) : Payload Thread Slot :=
  { p with
      clocks := Function.update p.clocks (imports slot)
        (fakeOf (p.clocks (imports slot)) real p.appliedScale).1
      pending := Function.update p.pending thread none }

omit [DecidableEq Slot] in
theorem answer_eq (p : Payload Thread Slot) (thread : Thread) (slot : Slot) (real : Nat) :
    p.answer imports thread slot real =
      (p.unlock imports thread slot real).receive thread slot
        ((imports slot).returned (p.shows (imports slot) real)) := rfl

/-- A hook may start its clock, or move its base back; either way the clock reports no
earlier values than before. -/
theorem upTo_unlock [Doubles.Ordered] (inOrder : InOrder imports thread slot p)
    {other : Thread} {at_ : Slot} {real : Nat}
    (waits : p.pending other = some (at_, real)) (reading : Int)
    (atHook : p.AtHook thread slot)
    (started : ((p.unlock imports other at_ real).clocks (imports slot)).started = true)
    (below : (p.clocks (imports slot)).started = true →
      p.UpTo thread slot (p.shows (imports slot) reading)) :
    p.UpTo thread slot ((p.unlock imports other at_ real).shows (imports slot) reading) := by
  by_cases same : imports at_ = imports slot
  · have left : (p.unlock imports other at_ real).clocks (imports slot) =
        (fakeOf (p.clocks (imports slot)) real p.appliedScale).1 := by
      simp [unlock, same]
    unfold shows
    rw [left]
    cases before : (p.clocks (imports slot)).started with
    | true => exact (below before).mono (shown_le_answered before _ _ _)
    | false =>
        refine (inOrder.unstarted before atHook other at_ real waits same).mono ?_
        rw [fakeOf_unstarted before]
        exact base_le_shown rfl _ _
  · have kept : (p.unlock imports other at_ real).clocks (imports slot) =
        p.clocks (imports slot) := by
      simp [unlock, Ne.symm same]
    unfold shows
    rw [kept]
    exact below (kept ▸ started)

theorem inOrder_unlock [Doubles.Ordered] (inOrder : InOrder imports thread slot p)
    {other : Thread} {at_ : Slot} {real : Nat} (waits : p.pending other = some (at_, real))
    (free : p.changing = none) :
    InOrder imports thread slot (p.unlock imports other at_ real) := by
  have still : ∀ {third place taken},
      (p.unlock imports other at_ real).pending third = some (place, taken) →
      p.pending third = some (place, taken) := by
    intro third place taken waiting
    by_cases last : third = other
    · simp [unlock, last] at waiting
    · simpa [unlock, last] using waiting
  have freshBefore : ((p.unlock imports other at_ real).clocks (imports slot)).started = false →
      (p.clocks (imports slot)).started = false := by
    intro fresh
    by_cases same : imports slot = imports at_
    · simp [unlock, same] at fresh
    · simpa [unlock, same] using fresh
  refine ⟨inOrder.sorted, ?_, ?_, ?_, ?_, ?_, inOrder.refused⟩
  · intro taken started waiting
    exact upTo_unlock inOrder waits taken (.inr ⟨taken, still waiting⟩) started
      fun before => inOrder.waiting taken before (still waiting)
  · intro started redirected
    exact upTo_unlock inOrder waits _ (.inl redirected) started
      fun before => inOrder.hooked before redirected
  · intro either
    exact inOrder.direct (either.imp id freshBefore)
  · intro fresh atHook third place taken waiting
    refine inOrder.unstarted (freshBefore fresh) ?_ third place taken (still waiting)
    exact atHook.imp id fun ⟨real, waited⟩ => ⟨real, still waited⟩
  · intro _ _ rest next changing
    exact absurd (free.symm.trans changing) (by simp)

theorem inOrder_answer [Doubles.Ordered] (inOrder : InOrder imports thread slot p)
    (sound : Sound imports p) (other : Thread) (meets : p.Meets imports slot (.answer other)) :
    InOrder imports thread slot (p.step imports (.answer other)) := by
  simp only [step]
  split
  · rename_i at_ real waits free
    have unlocked := inOrder_unlock inOrder waits free
    rw [answer_eq]
    by_cases mine : other = thread ∧ at_ = slot
    · obtain ⟨rfl, rfl⟩ := mine
      obtain ⟨notAhead, narrow⟩ := meets real waits
      have starts : ((p.unlock imports other at_ real).clocks (imports at_)).started = true := by
        simp [unlock]
      have nonneg : 0 ≤ p.shows (imports at_) real := by
        cases before : (p.clocks (imports at_)).started with
        | true => exact sound.shows_nonneg before real
        | false =>
            rw [shows, shown_unstarted before]
            exact Int.natCast_nonneg real
      have below : p.UpTo other at_ (p.shows (imports at_) real) := by
        cases before : (p.clocks (imports at_)).started with
        | true => exact inOrder.waiting real before waits
        | false =>
            rw [shows, shown_unstarted before]
            exact inOrder.unstarted before (.inr ⟨real, waits⟩) other at_ real waits rfl
      have past : (real : Int) ≤ p.now (imports at_) :=
        Int.ofNat_le.mpr (sound.pendingPast waits)
      have shownNext : p.shows (imports at_) real ≤
          (p.unlock imports other at_ real).shows (imports at_) (p.now (imports at_)) := by
        have same := shown_answered (p.clocks (imports at_)) p.appliedScale real
        unfold shows unlock
        simp only [Function.update_self]
        rw [← same]
        exact shown_mono _ _ past
      rw [returned_eq nonneg narrow]
      constructor
      · rw [valuesOf_receive]
        exact sorted_append inOrder.sorted below
      · intro taken _ waiting
        simp [receive, unlock] at waiting
      · exact fun _ _ => upTo_receive below shownNext
      · rintro (restored | fresh)
        · exact upTo_receive below (le_trans (shown_mono _ _ past) (notAhead restored))
        · exact absurd fresh (by simp [receive, unlock])
      · intro fresh
        exact absurd fresh (by simp [receive, unlock])
      · intro _ _ rest next changing
        exact absurd (free.symm.trans changing) (by simp)
      · intro _ missing
        exact absurd ((sound.pendingFound waits).symm.trans missing) (by simp)
    · exact inOrder_receive_other unlocked mine _
  · exact inOrder

/-- A rebase freezes the clock above every value there was, whichever rate comes next. -/
theorem inOrder_rebase [Doubles.Ordered] (inOrder : InOrder imports thread slot p)
    (sound : Sound imports p)
    {name : ClockName} {rest : List ClockName} {next : Scale}
    (changing : p.changing = some (name :: rest, next)) :
    InOrder imports thread slot p.goOnChanging := by
  unfold goOnChanging
  simp only [changing]
  by_cases same : imports slot = name
  · subst same
    cases before : (p.clocks (imports slot)).started with
    | false =>
        have kept : Function.update p.clocks (imports slot) (rebase (p.clocks (imports slot))
            (p.read (imports slot)) p.appliedScale) = p.clocks := by
          rw [rebase_unstarted before]
          exact Function.update_eq_self _ _
        rw [kept]
        refine { inOrder with rebased := ?_ }
        intro started
        exact absurd (before.symm.trans started) (by simp)
    | true =>
        have frozen : ∀ reading, p.shows (imports slot) (p.now (imports slot)) ≤
            shown (rebase (p.clocks (imports slot)) (p.read (imports slot)) p.appliedScale)
              p.appliedScale reading := by
          intro reading
          rw [rebase_started before, sound.read_started before]
          exact base_le_shown rfl _ reading
        have below : p.AtHook thread slot →
            p.UpTo thread slot (p.shows (imports slot) (p.now (imports slot))) := by
          rintro (redirected | ⟨real, waits⟩)
          · exact inOrder.hooked before redirected
          · exact (inOrder.waiting real before waits).mono
              (shown_mono _ _ (Int.ofNat_le.mpr (sound.pendingPast waits)))
        refine ⟨inOrder.sorted, ?_, ?_, ?_, ?_, ?_, inOrder.refused⟩
        · intro real _ waits
          simp only [shows, Function.update_self]
          exact (below (.inr ⟨real, waits⟩)).mono (frozen real)
        · intro _ redirected
          simp only [shows, Function.update_self]
          exact (below (.inl redirected)).mono (frozen _)
        · rintro (restored | fresh)
          · exact inOrder.direct (.inl restored)
          · simp [rebase_started before] at fresh
        · intro fresh
          simp [rebase_started before] at fresh
        · intro _ atHook _ _ _ _
          simp only [Function.update_self, rebase_started before, sound.read_started before]
          exact below atHook
  · obtain ⟨sorted, waiting, hooked, direct, unstarted, rebased, refused⟩ := inOrder
    have kept : Function.update p.clocks name (rebase (p.clocks name) (p.read name)
        p.appliedScale) (imports slot) = p.clocks (imports slot) := by
      simp [same]
    refine ⟨sorted, ?_, ?_, ?_, ?_, ?_, refused⟩ <;> simp only [shows, kept]
    · exact waiting
    · exact hooked
    · exact direct
    · exact unstarted
    · intro started atHook remaining after equal notIn
      have parts : rest = remaining ∧ next = after := by simpa using equal
      refine rebased started atHook (name :: rest) next changing ?_
      rw [parts.1, List.mem_cons, not_or]
      exact ⟨same, notIn⟩

/-- The new rate applies once every clock has been rebased. -/
theorem inOrder_apply [Doubles.Ordered] (inOrder : InOrder imports thread slot p) {next : Scale}
    (changing : p.changing = some ([], next)) :
    InOrder imports thread slot p.goOnChanging := by
  unfold goOnChanging
  simp only [changing]
  have below : (p.clocks (imports slot)).started = true → p.AtHook thread slot →
      ∀ reading, p.UpTo thread slot (shown (p.clocks (imports slot)) next reading) := by
    intro started atHook reading
    exact (inOrder.rebased started atHook [] next changing List.not_mem_nil).mono
      (base_le_shown started next reading)
  exact { inOrder with
    waiting := fun real started waits => below started (.inr ⟨real, waits⟩) real
    hooked := fun started redirected => below started (.inl redirected) _
    rebased := fun _ _ _ _ none_ => absurd none_ (by simp) }

theorem inOrder_goOnChanging [Doubles.Ordered] (inOrder : InOrder imports thread slot p)
    (sound : Sound imports p) :
    InOrder imports thread slot (p.step imports .goOnChanging) := by
  simp only [step]
  match changing : p.changing with
  | none =>
      unfold goOnChanging
      simp only [changing]
      exact inOrder
  | some ([], next) => exact inOrder_apply inOrder changing
  | some (name :: rest, next) => exact inOrder_rebase inOrder sound changing

theorem inOrder_beginChange (inOrder : InOrder imports thread slot p) (next : Scale) :
    InOrder imports thread slot (p.step imports (.beginChange next)) := by
  simp only [step]
  split
  · exact inOrder
  · refine { inOrder with rebased := ?_ }
    intro _ _ rest after equal notIn
    have all : clockNames = rest := by
      simp only [Option.some.injEq, Prod.mk.injEq] at equal
      exact equal.1
    rw [← all] at notIn
    cases name : imports slot <;> simp [name, clockNames] at notIn

/-- Another slot is patched or restored. -/
theorem inOrder_redirect (inOrder : InOrder imports thread slot p) {at_ : Slot}
    (apart : at_ ≠ slot) (leads : Bool) :
    InOrder imports thread slot
      { p with redirected := Function.update p.redirected at_ leads } := by
  have kept : Function.update p.redirected at_ leads slot = p.redirected slot := by
    simp [apart.symm]
  obtain ⟨sorted, waiting, hooked, direct, unstarted, rebased, refused⟩ := inOrder
  refine ⟨sorted, waiting, ?_, ?_, ?_, ?_, ?_⟩ <;> simp only [AtHook, kept] <;> assumption

/-- The slot leads to the hook from now on. -/
theorem inOrder_patch (inOrder : InOrder imports thread slot p) (at_ : Slot)
    (meets : p.Meets imports slot (.patch at_)) :
    InOrder imports thread slot (p.step imports (.patch at_)) := by
  simp only [step]
  split
  · exact inOrder
  · rename_i free
    by_cases mine : at_ = slot
    · subst mine
      obtain ⟨found, notBehind, unread⟩ := meets rfl
      have below : (p.clocks (imports at_)).started = true →
          p.UpTo thread at_ (p.shows (imports at_) (p.now (imports at_))) := by
        intro started
        cases redirected : p.redirected at_ with
        | false => exact (inOrder.direct (.inl redirected)).mono notBehind
        | true => exact inOrder.hooked started redirected
      refine ⟨inOrder.sorted, inOrder.waiting, fun started _ => below started, ?_, ?_, ?_, ?_⟩
      · rintro (restored | fresh)
        · simp at restored
        · exact inOrder.direct (.inr fresh)
      · intro fresh _ third place real waits same
        exact absurd same (unread fresh third place real waits)
      · intro _ _ rest next changing
        have busy : p.changing = some (rest, next) := changing
        exact absurd (by simp [busy]) free
      · intro _ missing
        exact absurd (found.symm.trans missing) (by simp)
    · exact inOrder_redirect inOrder mine true

/-- The slot leads to the real function from now on. -/
theorem inOrder_restore (inOrder : InOrder imports thread slot p) (at_ : Slot)
    (meets : p.Meets imports slot (.restore at_)) :
    InOrder imports thread slot (p.step imports (.restore at_)) := by
  simp only [step]
  split
  · exact inOrder
  · by_cases mine : at_ = slot
    · subst mine
      have below : p.UpTo thread at_ (p.now (imports at_)) := by
        cases redirected : p.redirected at_ with
        | false => exact inOrder.direct (.inl redirected)
        | true =>
            cases started : (p.clocks (imports at_)).started with
            | false => exact inOrder.direct (.inr started)
            | true => exact (inOrder.hooked started redirected).mono (meets rfl redirected)
      have before : ∀ {real}, p.pending thread = some (at_, real) → p.AtHook thread at_ :=
        fun waits => .inr ⟨_, waits⟩
      refine ⟨inOrder.sorted, inOrder.waiting, ?_, fun _ => below, ?_, ?_, ?_⟩
      · intro _ redirected
        simp at redirected
      · rintro fresh (redirected | ⟨real, waits⟩)
        · simp at redirected
        · exact inOrder.unstarted fresh (before waits)
      · rintro started (redirected | ⟨real, waits⟩)
        · simp at redirected
        · exact inOrder.rebased started (before waits)
      · intro redirected
        simp at redirected
    · exact inOrder_redirect inOrder mine false

theorem inOrder_find (inOrder : InOrder imports thread slot p) (name : ClockName) :
    InOrder imports thread slot (p.step imports (.find name)) := by
  refine { inOrder with refused := ?_ }
  intro redirected missing
  apply inOrder.refused redirected
  by_cases same : imports slot = name
  · simp [step, same] at missing
  · simpa [step, same] using missing

theorem inOrder_step [Doubles.Ordered] (inOrder : InOrder imports thread slot p)
    (sound : Sound imports p) (event : Event Thread Slot) (meets : p.Meets imports slot event) :
    InOrder imports thread slot (p.step imports event) := by
  cases event with
  | elapse name amount => exact inOrder_elapse inOrder name amount
  | call other at_ => exact inOrder_call inOrder sound other at_
  | answer other => exact inOrder_answer inOrder sound other meets
  | beginChange next => exact inOrder_beginChange inOrder next
  | goOnChanging => exact inOrder_goOnChanging inOrder sound
  | patch at_ => exact inOrder_patch inOrder at_ meets
  | restore at_ => exact inOrder_restore inOrder at_ meets
  | find name => exact inOrder_find inOrder name

/-- Neither hooks nor changes of rate write to a slot. -/
theorem redirected_step (p : Payload Thread Slot) {event : Event Thread Slot}
    (hooking : event.isHooking = true) :
    (p.step imports event).redirected = p.redirected := by
  cases event with
  | elapse name amount => simp only [step]; split <;> rfl
  | call thread slot =>
      simp only [step]
      split
      · rfl
      · unfold call
        split
        · split
          · rfl
          · cases imports slot <;> rfl
        · rfl
  | answer thread => simp only [step]; split <;> rfl
  | beginChange next => simp only [step]; split <;> rfl
  | goOnChanging =>
      simp only [step, goOnChanging]
      split <;> rfl
  | patch slot => contradiction
  | restore slot => contradiction
  | find name => contradiction

end Payload

/-- The values a thread gets from the hook of a clock that does not wrap are in order,
whatever other threads and changes of rate come between. -/
theorem hooked_values_inOrder {Thread : Type} [DecidableEq Thread] (now : ClockName → Nat)
    (found : ClockName → Bool) (events : List (Event Thread ClockName))
    (hooksOnly : ∀ event ∈ events, event.isHooking = true) (thread : Thread)
    (name : ClockName) (wide : name.isDword = false) :
    ((run (Payload.step id) (loaded now found fun _ => true) events).valuesOf thread
      name).Pairwise (· ≤ ·) := by
  have hooks : Follows (Payload.step id) (fun _ event => event.isHooking = true)
      (loaded now found fun _ => true) events := by
    rw [follows_iff_forall]
    intro done event part
    exact hooksOnly event (part.subset (by simp))
  have kept := @Reached.invariant _ _ _ _ _ _
    (fun p => (∀ slot, p.redirected slot = true) ∧ Payload.Sound id p ∧
      Payload.InOrder id thread name p) hooks.reached
    ⟨fun _ => rfl, Payload.sound_loaded _ _ _, Payload.inOrder_loaded _ _ _⟩ (by
      rintro before event ⟨redirected, sound, inOrder⟩ hooking
      refine ⟨?_, Payload.sound_step sound event, Payload.inOrder_step inOrder sound event ?_⟩
      · rw [Payload.redirected_step before hooking]
        exact redirected
      · cases event with
        | answer other =>
            intro real waits
            refine ⟨fun restored => ?_, fun narrow => ?_⟩
            · exact absurd ((redirected name).symm.trans restored) (by simp)
            · exact absurd (wide.symm.trans narrow) (by simp)
        | patch slot => contradiction
        | restore slot => contradiction
        | _ => trivial)
  exact kept.2.2.sorted

/-- Two threads and a change of rate between a reading and its answer. -/
theorem hooked_values_inOrder_twoThreads :
    ((run (Payload.step id) (loaded (fun _ => 100) (fun _ => true) fun _ => true)
      [.call true .qpc, .answer true, .elapse .qpc 50, .call false .qpc,
        .beginChange ⟨1 / 2, by norm_num⟩, .goOnChanging, .goOnChanging, .goOnChanging,
        .goOnChanging, .goOnChanging, .elapse .qpc 50, .call true .qpc, .answer true,
        .answer false]).valuesOf true ClockName.qpc).Pairwise (· ≤ ·) :=
  hooked_values_inOrder _ _ _ (by decide) true .qpc rfl

end PointerLab.SpeedHook
