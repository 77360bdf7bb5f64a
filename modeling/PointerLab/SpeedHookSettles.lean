import PointerLab.Ranks
import PointerLab.SpeedHookWorker

set_option autoImplicit false

/- The two ends of the speed hack as one protocol. Pointer Lab writes what it wants into the
control block and does not wait; the worker reads it there, in the midst of what it was asked
before. Whatever was asked until then, and wherever the worker stood, the last call is the one
that it comes to. -/
namespace PointerLab.SpeedHook

open Runs

/-- A write to the control block. -/
def WorkerEvent.isRequest {Thread Slot : Type} : WorkerEvent Thread Slot → Bool
  | .request _ => true
  | .requestUnhook => true
  | _ => false

namespace Worker

variable {Thread Slot : Type} {w : Worker Thread Slot}

/-- A step of the worker's own thread that brings it on. It leaves a slot it has to restore
behind with `restores`. -/
def own (w : Worker Thread Slot) : WorkerEvent Thread Slot → Bool
  | .work .goOn =>
      match w.place with
      | .restoring (_ :: _) => false
      | _ => true
  | .work (.restores _) =>
      match w.place with
      | .restoring (_ :: _) => true
      | _ => false
  | _ => false

/-- The call of `applyScale` the worker is in, or the rate that holds. -/
def Rated (w : Worker Thread Slot) : Prop :=
  match w.place with
  | .easing => ∃ left, w.payload.changing = some (left, realTime) ∧ left.length ≤ 4
  | .changing next => ∃ left, w.payload.changing = some (left, next) ∧ left.length ≤ 4
  | _ => w.payload.changing = none ∧ w.payload.appliedScale.val = w.applied

/-- The places the worker comes to with its hooks in. -/
def isHooked : Place Slot → Bool
  | .comparing _ => true
  | .changing _ => true
  | .counting => true
  | .seeking => true
  | .rescanning => true
  | _ => false

structure Coherent (w : Worker Thread Slot) : Prop where
  rated : w.Rated
  alive : w.alive = w.hooked
  bare : w.hooked = false → w.applied = 1
  eased : ∀ remaining, w.place = .restoring remaining →
    w.applied = 1 ∧ remaining.length ≤ maxPatches
  hooked : isHooked w.place = true → w.hooked = true
  patches : w.hooked = false → w.patches = [] ∨ isPatching w.place = true
  records : w.patches.length ≤ maxPatches

/-- What an own step can come to. -/
inductive Turn : Worker Thread Slot → Worker Thread Slot → Prop where
  | starts (w : Worker Thread Slot) (place : w.place = .starting) :
      Turn w { w with place := .patchingFirst }
  | hooks (w : Worker Thread Slot) (place : w.place = .patchingFirst) :
      Turn w { w with
        alive := true
        applied := w.payload.appliedScale.val
        sinceRescan := 0
        hooked := true
        place := .polling }
  | eases (w : Worker Thread Slot) (place : w.place = .polling) (asked : w.unhook = true) :
      Turn w { w with
        payload := { w.payload with changing := some (clockNames, realTime) }
        place := .easing }
  | asks (w : Worker Thread Slot) (place : w.place = .polling) (unasked : w.unhook = false) :
      Turn w { w with place := .asking }
  | rebases (w : Worker Thread Slot) (place : w.place = .easing ∨ ∃ next, w.place = .changing next)
      (name : ClockName) (left : List ClockName) (next : Scale) (clocks : ClockName → Clock)
      (inside : w.payload.changing = some (name :: left, next)) :
      Turn w { w with payload := { w.payload with clocks, changing := some (left, next) } }
  | eased (w : Worker Thread Slot) (place : w.place = .easing) (next : Scale)
      (inside : w.payload.changing = some ([], next)) :
      Turn w { w with
        payload := { w.payload with appliedScale := next, changing := none }
        applied := 1
        place := .restoring w.patches }
  | restores (w : Worker Thread Slot) (slot : Slot) (rest : List Slot) (redirected : Slot → Bool)
      (place : w.place = .restoring (slot :: rest)) :
      Turn w { w with payload := { w.payload with redirected }, place := .restoring rest }
  | restored (w : Worker Thread Slot) (place : w.place = .restoring []) :
      Turn w { w with
        patches := []
        hooked := false
        unhook := false
        alive := false
        place := .asking }
  | wakes (w : Worker Thread Slot) (place : w.place = .asking) (unhooked : w.hooked = false)
      (wanted : w.requestedScale ≠ 1 ∧ 0 < w.requestedScale) :
      Turn w { w with place := .patchingAgain w.requestedScale }
  | sleeps (w : Worker Thread Slot) (place : w.place = .asking) (unhooked : w.hooked = false)
      (unwanted : ¬(w.requestedScale ≠ 1 ∧ 0 < w.requestedScale)) :
      Turn w { w with place := .polling }
  | compares (w : Worker Thread Slot) (place : w.place = .asking) (hooked : w.hooked = true) :
      Turn w { w with place := .comparing w.requestedScale }
  | hooksAgain (w : Worker Thread Slot) (requested : ℚ)
      (place : w.place = .patchingAgain requested) :
      Turn w { w with
        hooked := true, sinceRescan := 0, alive := true, place := .comparing requested }
  | changes (w : Worker Thread Slot) (requested : ℚ) (place : w.place = .comparing requested)
      (wanted : requested ≠ w.applied ∧ 0 < requested) :
      Turn w { w with
        payload := { w.payload with changing := some (clockNames, ⟨requested, wanted.2⟩) }
        place := .changing ⟨requested, wanted.2⟩ }
  | agrees (w : Worker Thread Slot) (requested : ℚ) (place : w.place = .comparing requested)
      (unwanted : ¬(requested ≠ w.applied ∧ 0 < requested)) :
      Turn w { w with place := .counting }
  | changed (w : Worker Thread Slot) (requested next : Scale)
      (place : w.place = .changing requested)
      (inside : w.payload.changing = some ([], next)) :
      Turn w { w with
        payload := { w.payload with appliedScale := next, changing := none }
        applied := requested.val
        place := .counting }
  | counts (w : Worker Thread Slot) (place : w.place = .counting) :
      Turn w { w with sinceRescan := w.sinceRescan + 1, place := .polling }
  | seeks (w : Worker Thread Slot) (place : w.place = .counting) :
      Turn w { w with sinceRescan := 0, place := .seeking }
  | rescans (w : Worker Thread Slot) (place : w.place = .seeking) :
      Turn w { w with place := .rescanning }
  | rescanned (w : Worker Thread Slot) (place : w.place = .rescanning) :
      Turn w { w with place := .polling }

/-- What a step that is not the worker's own leaves as it is. -/
structure Still (w after : Worker Thread Slot) : Prop where
  place : after.place = w.place
  alive : after.alive = w.alive
  applied : after.applied = w.applied
  hooked : after.hooked = w.hooked
  changing : after.payload.changing = w.payload.changing
  scale : after.payload.appliedScale = w.payload.appliedScale
  patches : after.patches = w.patches ∨
    isPatching w.place = true ∧ after.patches.length ≤ maxPatches

theorem coherent_still (coherent : Coherent w) {after : Worker Thread Slot}
    (still : Still w after) : Coherent after where
  rated := by
    unfold Rated
    rw [still.place, still.changing, still.scale, still.applied]
    exact coherent.rated
  alive := still.alive.trans (coherent.alive.trans still.hooked.symm)
  bare off := still.applied.trans (coherent.bare (still.hooked ▸ off))
  eased remaining there := by
    rw [still.applied]
    exact coherent.eased remaining (still.place ▸ there)
  hooked there := still.hooked.trans (coherent.hooked (still.place ▸ there))
  patches off := by
    rcases still.patches with same | ⟨patching, -⟩
    · rw [same, still.place]
      exact coherent.patches (still.hooked ▸ off)
    · exact .inr (still.place ▸ patching)
  records := by
    rcases still.patches with same | ⟨-, room⟩
    · rw [same]
      exact coherent.records
    · exact room

theorem rated_turn (coherent : Coherent w) {after : Worker Thread Slot} (turn : Turn w after) :
    after.Rated := by
  have rated := coherent.rated
  unfold Rated at rated
  cases turn with
  | hooks place =>
      rw [place] at rated
      exact ⟨rated.1, rfl⟩
  | eases place asked => exact ⟨clockNames, rfl, Nat.le_refl _⟩
  | changes requested place wanted => exact ⟨clockNames, rfl, Nat.le_refl _⟩
  | rebases place name left next clocks inside =>
      unfold Rated
      rcases place with place | ⟨goal, place⟩
      all_goals
        simp only [place, inside, Option.some.injEq, Prod.mk.injEq] at rated ⊢
        obtain ⟨_, ⟨rfl, rfl⟩, few⟩ := rated
        exact ⟨left, ⟨rfl, rfl⟩, Nat.le_of_succ_le few⟩
  | eased place next inside =>
      simp only [place, inside, Option.some.injEq, Prod.mk.injEq] at rated
      obtain ⟨_, ⟨-, rfl⟩, -⟩ := rated
      exact ⟨rfl, rfl⟩
  | changed requested next place inside =>
      simp only [place, inside, Option.some.injEq, Prod.mk.injEq] at rated
      obtain ⟨_, ⟨-, rfl⟩, -⟩ := rated
      exact ⟨rfl, rfl⟩
  | restored place =>
      rw [place] at rated
      exact rated
  | restores slot rest redirected place =>
      rw [place] at rated
      exact rated
  | _ => simp_all [Rated]

theorem bare_turn (coherent : Coherent w) {after : Worker Thread Slot} (turn : Turn w after)
    (off : after.hooked = false) : after.applied = 1 := by
  cases turn with
  | restored place => exact (coherent.eased _ place).1
  | hooks place => exact nomatch off
  | hooksAgain requested place => exact nomatch off
  | changed requested next place inside =>
      have on := coherent.hooked (by rw [place]; rfl)
      exact absurd (on.symm.trans off) (by decide)
  | eased place next inside => rfl
  | _ => exact coherent.bare off

theorem eased_turn (coherent : Coherent w) {after : Worker Thread Slot} (turn : Turn w after)
    {remaining : List Slot} (there : after.place = .restoring remaining) :
    after.applied = 1 ∧ remaining.length ≤ maxPatches := by
  have eased := coherent.eased
  have records := coherent.records
  cases turn with
  | eased place next inside =>
      cases there
      exact ⟨rfl, records⟩
  | restores slot rest redirected place =>
      cases there
      obtain ⟨applied, most⟩ := eased _ place
      exact ⟨applied, Nat.le_of_succ_le most⟩
  | _ => simp_all

theorem coherent_turn (coherent : Coherent w) {after : Worker Thread Slot} (turn : Turn w after) :
    Coherent after where
  rated := rated_turn coherent turn
  alive := by cases turn <;> first | exact coherent.alive | rfl
  bare := bare_turn coherent turn
  eased _ there := eased_turn coherent turn there
  hooked := by
    have hooked := coherent.hooked
    cases turn <;> simp_all [isHooked]
  patches := by
    have hooked := coherent.hooked
    have patches := coherent.patches
    cases turn <;> simp_all [isPatching, isHooked]
  records := by cases turn <;> first | exact coherent.records | exact Nat.zero_le _

/-- Own steps of one round of the loop, at most. -/
def lap : Nat := maxPatches + 18

/-- How many own steps the worker is from its next look at `pl_unhook`, at most. -/
def toPolling (w : Worker Thread Slot) : Nat :=
  let left := match w.payload.changing with
    | none => 0
    | some (left, _) => left.length + 1
  match w.place with
  | .polling => 0
  | .patchingFirst => 1
  | .rescanning => 1
  | .starting => 2
  | .seeking => 2
  | .counting => 3
  | .changing _ => 3 + left
  | .comparing _ => 9
  | .patchingAgain _ => 10
  | .asking => 11
  | .restoring remaining => 12 + remaining.length
  | .easing => 12 + maxPatches + left

theorem toPolling_turn (coherent : Coherent w) {after : Worker Thread Slot} (turn : Turn w after) :
    (w.place = .polling → after.toPolling < lap) ∧
      (w.place ≠ .polling → after.toPolling < w.toPolling) := by
  obtain ⟨rated, -, -, -, -, -, records⟩ := coherent
  unfold Rated at rated
  have nearer (away : w.place ≠ .polling) (less : after.toPolling < w.toPolling) :
      (w.place = .polling → after.toPolling < lap) ∧
        (w.place ≠ .polling → after.toPolling < w.toPolling) :=
    ⟨fun here => absurd here away, fun _ => less⟩
  cases turn with
  | asks place unasked => exact ⟨fun _ => by simp [toPolling, lap], fun away => absurd place away⟩
  | eases place asked =>
      refine ⟨fun _ => ?_, fun away => absurd place away⟩
      simp only [toPolling, lap, clockNames, List.length_cons, List.length_nil]
      omega
  | rebases there name left next clocks inside =>
      -- It stays where it is, with one clock less to go.
      rcases there with there | ⟨goal, there⟩
      · exact nearer (by simp [there]) (by simp [toPolling, there, inside])
      · exact nearer (by simp [there]) (by simp [toPolling, there, inside])
  | eased place next inside =>
      refine nearer (by simp [place]) ?_
      simp only [toPolling, place, inside, List.length_nil]
      omega
  | restores slot rest redirected place =>
      exact nearer (by simp [place]) (by simp [toPolling, place])
  | changes requested place wanted =>
      exact nearer (by simp [place]) (by simp [toPolling, place, clockNames])
  | changed requested next place inside =>
      exact nearer (by simp [place]) (by simp [toPolling, place, inside])
  | _ =>
      rename_i place
      simp_all [toPolling]

theorem toPolling_still {after : Worker Thread Slot} (still : Still w after) :
    after.toPolling = w.toPolling := by
  unfold toPolling
  rw [still.place, still.changing]

/-- The last rate asked for holds. -/
def Settled (scale : ℚ) (w : Worker Thread Slot) : Prop :=
  w.requestedScale = scale ∧ w.unhook = false ∧ w.applied = scale ∧
    (scale ≠ 1 → w.hooked = true) ∧
    match w.place with
    | .polling => True
    | .asking => True
    | .comparing requested => requested = scale
    | .counting => True
    | .seeking => True
    | .rescanning => True
    | _ => False

/-- The round that the worker is in began after that rate was asked for. -/
def fresh (scale : ℚ) (w : Worker Thread Slot) : Bool :=
  match w.place with
  | .easing => true
  | .restoring _ => true
  | .asking => !w.unhook
  | .patchingAgain requested => decide (requested = scale) && !w.unhook
  | .comparing requested => decide (requested = scale) && !w.unhook
  | .changing requested => decide (requested.val = scale) && !w.unhook
  | _ => false

theorem settled_turn {scale : ℚ} (settled : w.Settled scale) {after : Worker Thread Slot}
    (turn : Turn w after) : after.Settled scale := by
  obtain ⟨asked, unhook, applied, hooked, place⟩ := settled
  cases turn with
  | eases there request => exact absurd (request.symm.trans unhook) (by decide)
  | wakes there unhooked wanted =>
      exact absurd ((hooked (asked ▸ wanted.1)).symm.trans unhooked) (by decide)
  | changes requested there wanted =>
      rw [there] at place
      exact absurd (place.trans applied.symm) wanted.1
  | compares there on => exact ⟨asked, unhook, applied, hooked, asked⟩
  | asks there _ => exact ⟨asked, unhook, applied, hooked, trivial⟩
  | sleeps there _ _ => exact ⟨asked, unhook, applied, hooked, trivial⟩
  | agrees requested there _ => exact ⟨asked, unhook, applied, hooked, trivial⟩
  | counts there => exact ⟨asked, unhook, applied, hooked, trivial⟩
  | seeks there => exact ⟨asked, unhook, applied, hooked, trivial⟩
  | rescans there => exact ⟨asked, unhook, applied, hooked, trivial⟩
  | rescanned there => exact ⟨asked, unhook, applied, hooked, trivial⟩
  | rebases there =>
      rcases there with there | ⟨_, there⟩
      · rw [there] at place
        exact place.elim
      · rw [there] at place
        exact place.elim
  | _ => simp_all only

theorem fresh_turn {scale : ℚ} (positive : 0 < scale) (coherent : Coherent w)
    (asked : w.requestedScale = scale) (begun : w.fresh scale = true ∨ w.place = .polling)
    {after : Worker Thread Slot} (turn : Turn w after) :
    after.Settled scale ∨ after.fresh scale = true := by
  have bare := coherent.bare
  have on := coherent.hooked
  unfold fresh at begun
  cases turn with
  | rebases there name left next clocks inside =>
      refine .inr ?_
      unfold fresh
      rcases there with there | ⟨_, there⟩
      · simp [there]
      · simpa [there] using begun
  | agrees requested there unwanted =>
      have hooked := on (by rw [there]; rfl)
      simp only [there, Bool.and_eq_true, decide_eq_true_eq, Bool.not_eq_true'] at begun
      obtain ⟨same, unhook⟩ := begun.resolve_right nofun
      have applied : requested = w.applied := by
        by_contra other
        exact unwanted ⟨other, same ▸ positive⟩
      exact .inl ⟨asked, unhook, applied.symm.trans same, fun _ => hooked, trivial⟩
  | _ => simp_all [Settled, fresh, isHooked]

/-- The hooks are out, as the last call asked for. -/
def Released (w : Worker Thread Slot) : Prop :=
  w.unhook = false ∧ w.hooked = false ∧ (w.place = .asking ∨ w.place = .polling)

/-- A reset that has come to its end has been seen or is still to be seen. -/
def Reset (w : Worker Thread Slot) : Prop :=
  w.requestedScale = 1 ∧ (w.unhook = true ∨ w.Released)

def letsGo (w : Worker Thread Slot) : Bool :=
  match w.place with
  | .easing => true
  | .restoring _ => true
  | _ => false

theorem released_turn (reset : w.Reset) (released : w.Released) {after : Worker Thread Slot}
    (turn : Turn w after) : after.Released := by
  obtain ⟨seen, off, there⟩ := released
  cases turn with
  | asks place unasked => exact ⟨seen, off, .inl rfl⟩
  | sleeps place unhooked unwanted => exact ⟨seen, off, .inr rfl⟩
  | eases place asked => exact absurd (seen.symm.trans asked) Bool.false_ne_true
  | wakes place unhooked wanted => exact absurd reset.1 wanted.1
  | compares place hooked => exact absurd (off.symm.trans hooked) Bool.false_ne_true
  | rebases place name left next clocks inside => exact ⟨seen, off, there⟩
  | _ => rcases there with there | there <;> simp_all

/-- Only the end of a round that lets go takes the last call back. -/
theorem reset_turn (reset : w.Reset) {after : Worker Thread Slot} (turn : Turn w after) :
    after.Reset := by
  obtain ⟨asked, pending | released⟩ := id reset
  · cases turn with
    | restored place => exact ⟨asked, .inr ⟨rfl, rfl, .inl rfl⟩⟩
    | _ => exact ⟨asked, .inl pending⟩
  · have still := released_turn reset released turn
    cases turn <;> exact ⟨asked, .inr still⟩

theorem letsGo_turn (reset : w.Reset) (kept : ¬ w.Released)
    (begun : w.letsGo = true ∨ w.place = .polling) {after : Worker Thread Slot}
    (turn : Turn w after) : after.Released ∨ after.letsGo = true := by
  have pending : w.unhook = true := reset.2.resolve_right kept
  cases turn with
  | eases place asked => exact .inr rfl
  | asks place unasked => exact absurd (unasked.symm.trans pending) Bool.false_ne_true
  | rebases place name left next clocks inside =>
      rcases place with place | ⟨goal, place⟩
      all_goals simp_all [letsGo]
  | eased place next inside => exact .inr rfl
  | restores slot rest redirected place => exact .inr rfl
  | restored place => exact .inl ⟨rfl, rfl, .inl rfl⟩
  | _ => simp_all [letsGo]

/-- The own steps left, when a round that is not `begun` has to be gone through first. -/
def rank (begun : Worker Thread Slot → Bool) (w : Worker Thread Slot) : Nat :=
  w.toPolling + if begun w then 0 else lap

/-- What the control block shows and where the worker stands. -/
structure Alike (w after : Worker Thread Slot) : Prop where
  place : after.place = w.place
  requestedScale : after.requestedScale = w.requestedScale
  unhook : after.unhook = w.unhook
  applied : after.applied = w.applied
  hooked : after.hooked = w.hooked

theorem rank_lt (coherent : Coherent w) (begun : Worker Thread Slot → Bool) :
    w.rank begun < 2 * lap := by
  have near : w.toPolling < lap := by
    obtain ⟨rated, -, -, eased, -, -, -⟩ := coherent
    unfold toPolling lap
    cases place : w.place
    all_goals grind [Rated]
  unfold rank
  split
  · omega
  · omega

theorem coherent_mapped (now : ClockName → Nat) : Coherent (mapped now : Worker Thread Slot) where
  rated := ⟨rfl, rfl⟩
  alive := rfl
  bare _ := rfl
  eased _ there := nomatch there
  hooked there := nomatch there
  patches _ := .inl rfl
  records := Nat.zero_le _

/-- A slot that does not lead to the real clock is one the worker still has a record of. -/
def Listed (w : Worker Thread Slot) : Prop :=
  ∀ slot, w.payload.redirected slot = true →
    match w.place with
    | .restoring remaining => slot ∈ remaining
    | _ => slot ∈ w.patches

theorem requested_turn {after : Worker Thread Slot} (turn : Turn w after) :
    after.requestedScale = w.requestedScale := by
  cases turn <;> rfl

theorem Settled.rate {scale : Scale} (settled : w.Settled scale.val) (coherent : Coherent w) :
    w.payload.appliedScale = scale := by
  obtain ⟨-, -, applied, -, place⟩ := settled
  have rated := coherent.rated
  unfold Rated at rated
  apply Subtype.ext
  grind

theorem Released.rate (released : w.Released) (coherent : Coherent w) :
    w.payload.appliedScale = realTime := by
  have applied := coherent.bare released.2.1
  have rated := coherent.rated
  unfold Rated at rated
  apply Subtype.ext
  rcases released.2.2 with place | place
  · rw [place] at rated
    exact rated.2.trans applied
  · rw [place] at rated
    exact rated.2.trans applied

theorem Released.patches (released : w.Released) (coherent : Coherent w) : w.patches = [] := by
  refine (coherent.patches released.2.1).resolve_right ?_
  rcases released.2.2 with place | place
  · rw [place]
    exact Bool.false_ne_true
  · rw [place]
    exact Bool.false_ne_true

variable [DecidableEq Thread] [DecidableEq Slot] {imports : Slot → ClockName}

theorem turn_goOn (imports : Slot → ClockName) (coherent : Coherent w)
    (mine : w.own (.work .goOn) = true) :
    Turn w (w.step imports (.work .goOn)) := by
  have rated := coherent.rated
  obtain ⟨payload, place, requested, unhook, alive, applied, hooked, since, patches⟩ := w
  cases place with
  | starting => exact .starts _ rfl
  | patchingFirst => exact .hooks _ rfl
  | polling =>
      cases unhook with
      | false => exact .asks _ rfl rfl
      | true =>
          have idle : payload.changing = none := rated.1
          simpa [step, acts, control, goOn, Payload.step, idle] using
            Turn.eases ⟨payload, .polling, requested, true, alive, applied, hooked, since, patches⟩
              rfl rfl
  | easing =>
      obtain ⟨left, inside, -⟩ := rated
      have inside : payload.changing = some (left, realTime) := inside
      cases left with
      | nil =>
          simpa [step, acts, control, goOn, Payload.step, Payload.goOnChanging, inside] using
            Turn.eased ⟨payload, .easing, requested, unhook, alive, applied, hooked, since, patches⟩
              rfl realTime inside
      | cons name left =>
          simpa [step, acts, control, goOn, Payload.step, Payload.goOnChanging, inside] using
            Turn.rebases
              ⟨payload, .easing, requested, unhook, alive, applied, hooked, since, patches⟩
              (.inl rfl) name left realTime _ inside
  | restoring remaining =>
      cases remaining with
      | nil => exact .restored _ rfl
      | cons slot rest => exact absurd mine Bool.false_ne_true
  | asking =>
      cases hooked with
      | true => exact .compares _ rfl rfl
      | false =>
          by_cases wanted : requested ≠ 1 ∧ 0 < requested
          · simpa [step, acts, control, goOn, wanted] using
              Turn.wakes ⟨payload, .asking, requested, unhook, alive, applied, false, since, patches⟩
                rfl rfl wanted
          · simpa only [step, acts, control, goOn, Bool.not_false, if_true, if_neg wanted] using
              Turn.sleeps
                ⟨payload, .asking, requested, unhook, alive, applied, false, since, patches⟩
                rfl rfl wanted
  | patchingAgain again => exact .hooksAgain _ _ rfl
  | comparing asked =>
      have idle : payload.changing = none := rated.1
      by_cases wanted : asked ≠ applied ∧ 0 < asked
      · simpa only [step, acts, control, goOn, Payload.step, idle, dif_pos wanted] using
          Turn.changes
            ⟨payload, .comparing asked, requested, unhook, alive, applied, hooked, since, patches⟩
            asked rfl wanted
      · simpa only [step, acts, control, goOn, dif_neg wanted] using
          Turn.agrees
            ⟨payload, .comparing asked, requested, unhook, alive, applied, hooked, since, patches⟩
            asked rfl wanted
  | changing next =>
      obtain ⟨left, inside, -⟩ := rated
      have inside : payload.changing = some (left, next) := inside
      cases left with
      | nil =>
          simpa [step, acts, control, goOn, Payload.step, Payload.goOnChanging, inside] using
            Turn.changed
              ⟨payload, .changing next, requested, unhook, alive, applied, hooked, since, patches⟩
              next next rfl inside
      | cons name left =>
          simpa [step, acts, control, goOn, Payload.step, Payload.goOnChanging, inside] using
            Turn.rebases
              ⟨payload, .changing next, requested, unhook, alive, applied, hooked, since, patches⟩
              (.inr ⟨next, rfl⟩) name left next _ inside
  | counting =>
      by_cases due : rescanInterval ≤ since + 1
      · simpa only [step, acts, control, goOn, if_pos due] using
          Turn.seeks ⟨payload, .counting, requested, unhook, alive, applied, hooked, since, patches⟩
            rfl
      · simpa only [step, acts, control, goOn, if_neg due] using
          Turn.counts ⟨payload, .counting, requested, unhook, alive, applied, hooked, since, patches⟩
            rfl
  | seeking => exact .rescans _ rfl
  | rescanning => exact .rescanned _ rfl

theorem turn_restores (imports : Slot → ClockName) (coherent : Coherent w) {written : Bool}
    (mine : w.own (.work (.restores written)) = true) :
    Turn w (w.step imports (.work (.restores written))) := by
  have rated := coherent.rated
  obtain ⟨payload, place, requested, unhook, alive, applied, hooked, since, patches⟩ := w
  cases place with
  | restoring remaining =>
      cases remaining with
      | nil => exact absurd mine Bool.false_ne_true
      | cons slot rest =>
          have idle : payload.changing = none := rated.1
          cases written with
          | false => exact .restores _ slot rest payload.redirected rfl
          | true =>
              simpa [step, acts, control, Payload.step, idle] using
                Turn.restores ⟨payload, .restoring (slot :: rest), requested, unhook, alive, applied,
                  hooked, since, patches⟩ slot rest (Function.update payload.redirected slot false)
                  rfl
  | _ => exact absurd mine Bool.false_ne_true

theorem turn_own (imports : Slot → ClockName) (coherent : Coherent w)
    {event : WorkerEvent Thread Slot}
    (mine : w.own event = true) : Turn w (w.step imports event) := by
  cases event with
  | work luck =>
      cases luck with
      | goOn => exact turn_goOn imports coherent mine
      | restores written => exact turn_restores imports coherent mine
      | finds name => exact absurd mine Bool.false_ne_true
      | patches slot written => exact absurd mine Bool.false_ne_true
  | _ => exact absurd mine Bool.false_ne_true

theorem rate_step (p : Payload Thread Slot) {act : Event Thread Slot}
    (other : act.isChange = false) (going : act ≠ .goOnChanging) :
    (p.step imports act).changing = p.changing ∧
      (p.step imports act).appliedScale = p.appliedScale := by
  cases act with
  | elapse name amount =>
      simp only [Payload.step]
      split <;> exact ⟨rfl, rfl⟩
  | call thread slot =>
      simp only [Payload.step, Payload.call]
      split
      · exact ⟨rfl, rfl⟩
      · split
        · split
          · exact ⟨rfl, rfl⟩
          · cases imports slot <;> exact ⟨rfl, rfl⟩
        · exact ⟨rfl, rfl⟩
  | answer thread =>
      simp only [Payload.step]
      split <;> exact ⟨rfl, rfl⟩
  | beginChange next => exact absurd other.symm Bool.false_ne_true
  | goOnChanging => exact absurd rfl going
  | patch slot =>
      simp only [Payload.step]
      split <;> exact ⟨rfl, rfl⟩
  | restore slot =>
      simp only [Payload.step]
      split <;> exact ⟨rfl, rfl⟩
  | find name => exact ⟨rfl, rfl⟩

theorem rate_other (imports : Slot → ClockName) {event : WorkerEvent Thread Slot}
    (other : w.own event = false) :
    (w.step imports event).payload.changing = w.payload.changing ∧
      (w.step imports event).payload.appliedScale = w.payload.appliedScale := by
  unfold step
  cases acts : w.acts event with
  | none => exact ⟨rfl, rfl⟩
  | some act =>
      have quiet : act.isChange = false ∧ act ≠ .goOnChanging := by
        unfold Worker.acts at acts
        unfold own at other
        grind [Event.isChange]
      exact rate_step w.payload quiet.1 quiet.2

/-- What else a step does that is not the worker's own. -/
theorem step_other (imports : Slot → ClockName) {event : WorkerEvent Thread Slot}
    (other : w.own event = false) :
    (∃ payload, w.step imports event = { w with payload }) ∨
      (∃ payload slot, isPatching w.place = true ∧ w.patches.length < maxPatches ∧
        w.step imports event = { w with payload, patches := slot :: w.patches }) ∨
      event.isRequest = true ∧ ∃ payload requestedScale unhook,
        w.step imports event = { w with payload, requestedScale, unhook } := by
  obtain ⟨payload, found⟩ : ∃ payload, payload = (w.step imports event).payload := ⟨_, rfl⟩
  cases event with
  | elapse name amount => exact .inl ⟨_, rfl⟩
  | call thread slot => exact .inl ⟨_, rfl⟩
  | answer thread => exact .inl ⟨_, rfl⟩
  | request scale => exact .inr (.inr ⟨rfl, _, scale, w.unhook, rfl⟩)
  | requestUnhook => exact .inr (.inr ⟨rfl, _, w.requestedScale, true, rfl⟩)
  | work luck =>
      cases luck with
      | finds name => exact .inl ⟨_, rfl⟩
      | patches slot written =>
          by_cases may : (isPatching w.place && w.mayPatch slot) = true
          · refine .inr (.inl ⟨payload, slot, ?_, ?_, ?_⟩)
            · exact (Bool.and_eq_true_iff.mp may).1
            · have room := (Bool.and_eq_true_iff.mp may).2
              simp only [mayPatch, Bool.not_eq_true', Bool.or_eq_false_iff,
                decide_eq_false_iff_not, Nat.not_le] at room
              exact room.2
            · simp only [found, step, control, if_pos may]
          · exact .inl ⟨payload, by simp only [found, step, control, if_neg may]⟩
      | goOn =>
          cases place : w.place with
          | restoring remaining =>
              cases remaining with
              | nil => simp [own, place] at other
              | cons slot rest =>
                exact .inl ⟨payload, by simp only [found, step, control, goOn, place]⟩
          | _ => simp [own, place] at other
      | restores written =>
          cases place : w.place with
          | restoring remaining =>
              cases remaining with
              | nil => exact .inl ⟨payload, by simp only [found, step, control, place]⟩
              | cons slot rest => simp [own, place] at other
          | _ => exact .inl ⟨payload, by simp only [found, step, control, place]⟩

theorem still_other (imports : Slot → ClockName) {event : WorkerEvent Thread Slot}
    (other : w.own event = false) :
    Still w (w.step imports event) := by
  obtain ⟨changing, scale⟩ := rate_other imports other
  rcases step_other imports other with
    ⟨payload, same⟩ | ⟨payload, slot, patching, room, added⟩ |
    ⟨-, payload, requestedScale, unhook, asked⟩
  · rw [same] at changing scale ⊢
    exact ⟨rfl, rfl, rfl, rfl, changing, scale, .inl rfl⟩
  · rw [added] at changing scale ⊢
    exact ⟨rfl, rfl, rfl, rfl, changing, scale, .inr ⟨patching, room⟩⟩
  · rw [asked] at changing scale ⊢
    exact ⟨rfl, rfl, rfl, rfl, changing, scale, .inl rfl⟩

theorem quiet_other (imports : Slot → ClockName) {event : WorkerEvent Thread Slot}
    (quiet : event.isRequest = false)
    (other : w.own event = false) :
    (w.step imports event).requestedScale = w.requestedScale ∧
      (w.step imports event).unhook = w.unhook := by
  rcases step_other imports other with
    ⟨payload, same⟩ | ⟨payload, slot, -, -, added⟩ | ⟨asking, -⟩
  · exact same ▸ ⟨rfl, rfl⟩
  · exact added ▸ ⟨rfl, rfl⟩
  · exact absurd asking (quiet ▸ Bool.false_ne_true)

theorem ranked {holds goal : Worker Thread Slot → Prop} {begun : Worker Thread Slot → Bool}
    (alike : ∀ {w after}, Alike w after →
      (holds w → holds after) ∧ (goal w → goal after) ∧ begun after = begun w)
    (waits : ∀ {w}, begun w = true → w.place ≠ .polling)
    (holdsTurn : ∀ {w after}, Coherent w → holds w → Turn w after → holds after)
    (goalTurn : ∀ {w after}, Coherent w → holds w → goal w → Turn w after → goal after)
    (begunTurn : ∀ {w after}, Coherent w → holds w → ¬ goal w →
      begun w = true ∨ w.place = .polling → Turn w after → goal after ∨ begun after = true) :
    Ranked (step imports) own (fun _ event => event.isRequest = false)
      (fun w => Coherent w ∧ holds w) goal (rank begun) := by
  have others {w : Worker Thread Slot} {event : WorkerEvent Thread Slot}
      (quiet : event.isRequest = false) (other : w.own event = false) :
      Still w (w.step imports event) ∧ Alike w (w.step imports event) := by
    have still := still_other imports other
    obtain ⟨requested, unhook⟩ := quiet_other imports quiet other
    exact ⟨still, still.place, requested, unhook, still.applied, still.hooked⟩
  constructor
  · intro w event ⟨coherent, held⟩ quiet
    cases mine : w.own event with
    | true =>
        have turn := turn_own imports coherent mine
        exact ⟨coherent_turn coherent turn, holdsTurn coherent held turn⟩
    | false =>
        obtain ⟨still, same⟩ := others quiet mine
        exact ⟨coherent_still coherent still, (alike same).1 held⟩
  · intro w event ⟨coherent, held⟩ reached quiet
    cases mine : w.own event with
    | true => exact goalTurn coherent held reached (turn_own imports coherent mine)
    | false => exact (alike (others quiet mine).2).2.1 reached
  · intro w event ⟨coherent, held⟩ missed quiet mine
    have turn := turn_own imports coherent mine
    obtain ⟨leaves, nears⟩ := toPolling_turn coherent turn
    unfold rank
    by_cases polls : w.place = .polling
    · have old : begun w = false := by
        by_contra new
        exact waits (Bool.not_eq_false _ ▸ new) polls
      rcases begunTurn coherent held missed (.inr polls) turn with reached | new
      · exact .inl reached
      · have near := leaves polls
        rw [old, new, if_pos rfl, if_neg Bool.false_ne_true]
        exact .inr (by omega)
    · have near := nears polls
      cases new : begun w with
      | true =>
          rcases begunTurn coherent held missed (.inl new) turn with reached | still
          · exact .inl reached
          · rw [still, if_pos rfl]
            exact .inr (by omega)
      | false =>
          rw [if_neg Bool.false_ne_true]
          refine .inr ?_
          split
          · omega
          · omega
  · intro w event ⟨coherent, held⟩ missed quiet other
    obtain ⟨still, same⟩ := others quiet other
    refine .inr (Nat.le_of_eq ?_)
    rw [rank, rank, toPolling_still still, (alike same).2.2]

theorem coherent_step (imports : Slot → ClockName) (coherent : Coherent w)
    (event : WorkerEvent Thread Slot) : Coherent (w.step imports event) := by
  cases mine : w.own event with
  | true => exact coherent_turn coherent (turn_own imports coherent mine)
  | false => exact coherent_still coherent (still_other imports mine)

theorem coherent_run (imports : Slot → ClockName) (now : ClockName → Nat)
    (events : List (WorkerEvent Thread Slot)) :
    Coherent (run (step imports) (mapped now) events) :=
  (follows_true _ _ events).reached.invariant (coherent_mapped now)
    fun _ event coherent _ => coherent_step imports coherent event

theorem redirected_step (p : Payload Thread Slot) {act : Event Thread Slot} {slot : Slot}
    (patches : act ≠ .patch slot) (after : (p.step imports act).redirected slot = true) :
    p.redirected slot = true := by
  cases act with
  | elapse name amount =>
      simp only [Payload.step] at after
      split at after <;> exact after
  | call thread at_ =>
      simp only [Payload.step, Payload.call] at after
      split at after
      · exact after
      · split at after
        · split at after
          · exact after
          · cases named : imports at_ <;> rw [named] at after <;> exact after
        · exact after
  | answer thread =>
      simp only [Payload.step] at after
      split at after <;> exact after
  | beginChange next =>
      simp only [Payload.step] at after
      split at after <;> exact after
  | goOnChanging =>
      simp only [Payload.step, Payload.goOnChanging] at after
      split at after <;> exact after
  | patch other =>
      simp only [Payload.step] at after
      split at after
      · exact after
      · have different : slot ≠ other := by
          intro same
          exact patches (congrArg Event.patch same.symm)
        simpa [different] using after
  | restore other =>
      simp only [Payload.step] at after
      split at after
      · exact after
      · by_cases same : slot = other
        · simp [same] at after
        · simpa [same] using after
  | find name => exact after

/-- Only a patch redirects a slot. -/
theorem redirected_of_step {event : WorkerEvent Thread Slot} {slot : Slot}
    (after : (w.step imports event).payload.redirected slot = true) :
    w.payload.redirected slot = true ∨ w.acts event = some (.patch slot) := by
  by_cases patches : w.acts event = some (.patch slot)
  · exact .inr patches
  · unfold step at after
    cases acts : w.acts event with
    | none =>
        rw [acts] at after
        exact .inl after
    | some act =>
        rw [acts] at after
        exact .inl (redirected_step w.payload (fun same => patches (same ▸ acts)) after)

theorem listed_goOn (imports : Slot → ClockName) (coherent : Coherent w) (listed : w.Listed)
    (mine : w.own (.work .goOn) = true) : (w.step imports (.work .goOn)).Listed := by
  intro slot after
  have turn := turn_goOn imports coherent mine
  have before : w.payload.redirected slot = true := by
    rcases redirected_of_step after with before | patches
    · exact before
    · unfold acts at patches
      grind
  have known := listed slot before
  generalize w.step imports (.work .goOn) = later at turn
  cases turn
  all_goals grind [own]

theorem listed_restores (imports : Slot → ClockName) (coherent : Coherent w) (listed : w.Listed)
    (mine : w.own (.work (.restores true)) = true) :
    (w.step imports (.work (.restores true))).Listed := by
  intro slot after
  cases place : w.place with
  | restoring remaining =>
      cases remaining with
      | nil => simp [own, place] at mine
      | cons head rest =>
          have idle : w.payload.changing = none := by
            have rated := coherent.rated
            rw [Rated, place] at rated
            exact rated.1
          have known := listed slot
          rw [place] at known
          simp only [step, acts, control, place, Payload.step, idle, if_true] at after ⊢
          by_cases same : slot = head
          · simp [same] at after
          · have before : w.payload.redirected slot = true := by simpa [same] using after
            exact (List.mem_cons.mp (known before)).resolve_left same
  | _ => simp [own, place] at mine

theorem listed_other (imports : Slot → ClockName) (listed : w.Listed)
    {event : WorkerEvent Thread Slot} (other : w.own event = false) :
    (w.step imports event).Listed := by
  intro slot after
  rcases redirected_of_step after with before | patches
  · have known := listed slot before
    rcases step_other imports other with
      ⟨payload, same⟩ | ⟨payload, added, patching, room, same⟩ |
      ⟨-, payload, requestedScale, unhook, same⟩
    · rw [same]
      exact known
    · rw [same]
      cases place : w.place <;> simp_all [isPatching]
    · rw [same]
      exact known
  · unfold acts at patches
    cases event with
    | work luck =>
        cases luck with
        | patches at_ written =>
            simp only [Option.ite_none_right_eq_some, Bool.and_eq_true, Option.some.injEq,
              Event.patch.injEq] at patches
            obtain ⟨⟨⟨patching, may⟩, -⟩, rfl⟩ := patches
            have added : (w.step imports (.work (.patches at_ written))).patches =
                at_ :: w.patches := by
              simp only [step, control, patching, may, Bool.and_self, if_true]
            have place := (still_other imports other).place
            rw [place, added]
            cases there : w.place <;> simp_all [isPatching]
        | _ => grind
    | _ => grind

theorem listed_run (imports : Slot → ClockName) (now : ClockName → Nat)
    {events : List (WorkerEvent Thread Slot)}
    (written : ∀ event ∈ events, event ≠ .work (.restores false)) :
    (run (step imports) (mapped now) events).Listed := by
  have both := @Reached.invariant _ _ _ _ _ _ (fun w => Coherent w ∧ w.Listed)
    (follows_of_forall (step imports) (mapped now) written).reached
    ⟨coherent_mapped now, fun _ off => nomatch off⟩ fun w event before writes => by
      refine ⟨coherent_step imports before.1 event, ?_⟩
      cases mine : w.own event with
      | false => exact listed_other imports before.2 mine
      | true =>
          cases event with
          | work luck =>
              cases luck with
              | goOn => exact listed_goOn imports before.1 before.2 mine
              | restores written =>
                  cases written with
                  | true => exact listed_restores imports before.1 before.2 mine
                  | false => exact absurd rfl writes
              | _ => exact absurd mine Bool.false_ne_true
          | _ => exact absurd mine Bool.false_ne_true
  exact both.2

theorem requested_run (imports : Slot → ClockName) (coherent : Coherent w)
    {events : List (WorkerEvent Thread Slot)} (quiet : ∀ event ∈ events, event.isRequest = false) :
    (run (step imports) w events).requestedScale = w.requestedScale := by
  have both := @Reached.invariant _ _ _ _ _ _
    (fun later => Coherent later ∧ later.requestedScale = w.requestedScale)
    (follows_of_forall (step imports) w quiet).reached ⟨coherent, rfl⟩ fun later event held quiet => by
      refine ⟨coherent_step imports held.1 event, Eq.trans ?_ held.2⟩
      cases mine : later.own event with
      | true => exact requested_turn (turn_own imports held.1 mine)
      | false => exact (quiet_other imports quiet mine).1
  exact both.2

theorem ranked_settled (imports : Slot → ClockName) (scale : Scale) :
    Ranked (step imports) own (fun _ (event : WorkerEvent Thread Slot) => event.isRequest = false)
      (fun w => Coherent w ∧ w.requestedScale = scale.val) (Settled scale.val)
      (rank (fresh scale.val)) := by
  apply ranked
  · intro w after alike
    obtain ⟨place, requestedScale, unhook, applied, hooked⟩ := alike
    refine ⟨requestedScale.trans, ?_, ?_⟩
    · unfold Settled
      rw [place, requestedScale, unhook, applied, hooked]
      exact id
    · unfold fresh
      rw [place, unhook]
  · intro w begun there
    simp [fresh, there] at begun
  · intro w after _ asked turn
    exact (requested_turn turn).trans asked
  · intro w after coherent _ settled turn
    exact settled_turn settled turn
  · intro w after coherent asked _ begun turn
    exact fresh_turn scale.property coherent asked begun turn

theorem ranked_released (imports : Slot → ClockName) :
    Ranked (step imports) own (fun _ (event : WorkerEvent Thread Slot) => event.isRequest = false)
      (fun w => Coherent w ∧ w.Reset) Released (rank letsGo) := by
  apply ranked
  · intro w after alike
    obtain ⟨place, requestedScale, unhook, applied, hooked⟩ := alike
    have released : w.Released → after.Released := by
      unfold Released
      rw [place, unhook, hooked]
      exact id
    refine ⟨?_, released, ?_⟩
    · unfold Reset
      rw [requestedScale, unhook]
      exact fun reset => ⟨reset.1, reset.2.imp_right released⟩
    · unfold letsGo
      rw [place]
  · intro w begun there
    simp [letsGo, there] at begun
  · intro w after _ reset turn
    exact reset_turn reset turn
  · intro w after _ reset released turn
    exact released_turn reset released turn
  · intro w after _ reset kept begun turn
    exact letsGo_turn reset kept begun turn

/-- A worker that finds no import to patch goes on with every step. -/
theorem taken_goOn (imports : Slot → ClockName) (coherent : Coherent w)
    (bare : w.patches = [] ∧ ∀ slot rest, w.place ≠ .restoring (slot :: rest)) (steps : Nat) :
    taken (step imports) own w (List.replicate steps (.work .goOn)) = steps := by
  induction steps generalizing w with
  | zero => rfl
  | succ steps ih =>
      have mine : w.own (.work .goOn) = true := by
        unfold own
        grind
      have turn := turn_goOn imports coherent mine
      have after : (w.step imports (.work .goOn)).patches = [] ∧
          ∀ slot rest, (w.step imports (.work .goOn)).place ≠ .restoring (slot :: rest) := by
        generalize w.step imports (.work .goOn) = later at turn
        cases turn
        all_goals grind
      rw [List.replicate_succ, taken, mine, ih (coherent_step imports coherent _) after,
        Bool.toNat_true, Nat.add_comm]

/-- The last rate that was asked for is the one that holds once the worker has gone two rounds,
wherever it stood and whatever it was asked before. -/
theorem scale_settles (imports : Slot → ClockName) (now : ClockName → Nat)
    (before after : List (WorkerEvent Thread Slot)) (scale : Scale)
    (quiet : ∀ event ∈ after, event.isRequest = false)
    (enough : 2 * lap < taken (step imports) own
      (run (step imports) (mapped now) (before ++ [.request scale.val])) after) :
    let w := run (step imports) (mapped now) (before ++ [.request scale.val] ++ after)
    w.payload.appliedScale = scale ∧ w.unhook = false ∧ (scale.val ≠ 1 → w.alive = true) := by
  intro w
  have asked : (run (step imports) (mapped now)
      (before ++ [.request scale.val])).requestedScale = scale.val := by
    rw [run_append]
    rfl
  have settled : w.Settled scale.val := by
    have first := coherent_run imports now (before ++ [.request scale.val])
    show Settled _ (run _ _ _)
    rw [run_append]
    apply (ranked_settled imports scale).goal_of_taken ⟨first, asked⟩
    · exact follows_of_forall _ _ quiet
    · exact Nat.lt_trans (rank_lt first _) enough
  have coherent : Coherent w := coherent_run imports now _
  refine ⟨settled.rate coherent, settled.2.1, fun fast => ?_⟩
  rw [coherent.alive]
  exact settled.2.2.2.1 fast

theorem two_rate : (0 : ℚ) < 2 := by norm_num

def twice : Scale := ⟨2, two_rate⟩

theorem scale_settles_twice :
    let w : Worker Unit Unit := run (step fun _ => .qpc) (mapped fun _ => 0)
      ([] ++ [.request twice.val] ++ List.replicate 4200 (.work .goOn))
    w.payload.appliedScale = twice ∧ w.unhook = false ∧ (twice.val ≠ 1 → w.alive = true) := by
  apply scale_settles
  · intro event listed
    rw [List.eq_of_mem_replicate listed]
    rfl
  · rw [taken_goOn _ (coherent_run _ _ _) ⟨rfl, fun _ _ there => ?_⟩]
    · decide
    · exact absurd (show Place.starting = .restoring _ from there) nofun

/-- After a reset the clocks run as they did, the worker keeps no record, and every slot leads to
its real clock again if each could be written. -/
theorem reset_settles (imports : Slot → ClockName) (now : ClockName → Nat)
    (before between after : List (WorkerEvent Thread Slot))
    (still : ∀ event ∈ between, event.isRequest = false)
    (quiet : ∀ event ∈ after, event.isRequest = false)
    (enough : 2 * lap < taken (step imports) own
      (run (step imports) (mapped now) (before ++ [.request 1] ++ between ++ [.requestUnhook]))
        after) :
    let events := before ++ [.request 1] ++ between ++ [.requestUnhook] ++ after
    let w := run (step imports) (mapped now) events
    w.payload.appliedScale = realTime ∧ w.alive = false ∧ w.patches = [] ∧
      ((∀ event ∈ events, event ≠ .work (.restores false)) →
        ∀ slot, w.payload.redirected slot = false) := by
  intro events w
  have coherent : Coherent w := coherent_run imports now _
  have reset : (run (step imports) (mapped now)
      (before ++ [.request 1] ++ between ++ [.requestUnhook])).Reset := by
    rw [run_append]
    have kept := requested_run imports (coherent_run imports now (before ++ [.request 1])) still
    rw [← run_append, run_append _ _ before] at kept
    exact ⟨kept, .inl rfl⟩
  have released : w.Released := by
    have first := coherent_run imports now (before ++ [.request 1] ++ between ++ [.requestUnhook])
    show Released (run _ _ _)
    rw [run_append]
    apply (ranked_released imports).goal_of_taken ⟨first, reset⟩
    · exact follows_of_forall _ _ quiet
    · exact Nat.lt_trans (rank_lt first _) enough
  refine ⟨released.rate coherent, coherent.alive.trans released.2.1, released.patches coherent, ?_⟩
  intro written slot
  rw [Bool.eq_false_iff]
  intro redirected
  have listed := listed_run imports now written slot redirected
  have place : (run (step imports) (mapped now) events).place = .asking ∨
      (run (step imports) (mapped now) events).place = .polling := released.2.2
  have none_ : (run (step imports) (mapped now) events).patches = [] :=
    released.patches coherent
  rcases place with place | place
  · rw [place, none_] at listed
    exact List.not_mem_nil listed
  · rw [place, none_] at listed
    exact List.not_mem_nil listed

theorem reset_settles_closed :
    let events : List (WorkerEvent Unit Unit) :=
      [.request 2] ++ [.request 1] ++ [] ++ [.requestUnhook] ++ List.replicate 4200 (.work .goOn)
    let w := run (step fun _ => .qpc) (mapped fun _ => 0) events
    w.payload.appliedScale = realTime ∧ w.alive = false ∧ w.patches = [] ∧
      ((∀ event ∈ events, event ≠ .work (.restores false)) →
        ∀ slot, w.payload.redirected slot = false) := by
  apply reset_settles
  · exact fun _ listed => absurd listed List.not_mem_nil
  · intro event listed
    rw [List.eq_of_mem_replicate listed]
    rfl
  · rw [taken_goOn _ (coherent_run _ _ _) ⟨rfl, fun _ _ there => ?_⟩]
    · decide
    · exact absurd (show Place.starting = .restoring _ from there) nofun

end Worker

end PointerLab.SpeedHook
