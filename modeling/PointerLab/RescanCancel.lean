import PointerLab.Interruptible
import PointerLab.NextScan
import PointerLab.PointerRescan

set_option autoImplicit false

/- `ScanJob::scanNext` and `PointerScanJob::runFilter` as workers that are cancelled at any
moment: step by step, and what each installs in the end. -/
namespace PointerLab

open Domain Interruptible MemoryScanner PointerScanner Sweep TargetView

variable {Epsilon : Type}

namespace MemoryScanner

variable (floats : FloatSteps Epsilon) (view : TargetView) (options : ScanOptions Epsilon)
  (mode : ScanMode) (value : ScanValue)

/-- One candidate of a next scan. `startNext` clears the results before the worker begins. -/
def nextPass (previous : List ScanResult) : Pass ScanResult where
  given := previous
  cleared := true
  visit := fun kept candidate =>
    match holds view value candidate with
    | none => (kept, false)
    | some current =>
        let grown :=
          if compareValues floats mode value current (oldBytes candidate) (firstBytes candidate)
            options.floatEpsilon then kept ++ [recordOf candidate current] else kept
        (grown, decide (options.maxResults ≤ grown.length))

variable {floats} {view} {options} {mode} {value}

theorem visit_none {previous kept : List ScanResult} {candidate : ScanResult}
    (held : holds view value candidate = none) :
    (nextPass floats view options mode value previous).visit kept candidate = (kept, false) := by
  unfold nextPass
  dsimp only
  rw [held]

theorem visit_some {previous kept : List ScanResult} {candidate : ScanResult} {current : List UInt8}
    (held : holds view value candidate = some current) :
    (nextPass floats view options mode value previous).visit kept candidate =
      let grown :=
        if compareValues floats mode value current (oldBytes candidate) (firstBytes candidate)
          options.floatEpsilon then kept ++ [recordOf candidate current] else kept
      (grown, decide (options.maxResults ≤ grown.length)) := by
  unfold nextPass
  dsimp only
  rw [held]

/-- The worker's loop is that of `scanNext`. -/
theorem wholeFrom_nextPass {previous : List ScanResult} (candidates kept : List ScanResult)
    (i : Nat) :
    (nextPass floats view options mode value previous).wholeFrom candidates kept =
      narrowLoop floats view options mode value .never i candidates kept := by
  induction candidates generalizing i kept with
  | nil => rfl
  | cons candidate rest ih =>
      unfold Pass.wholeFrom narrowLoop
      rw [if_neg (show CancelFlag.never.round i ≠ true from Bool.false_ne_true)]
      cases held : holds view value candidate with
      | none =>
          rw [visit_none held]
          exact ih kept (i + 1)
      | some current =>
          rw [visit_some held]
          simp only [decide_eq_true_eq]
          rw [ih _ (i + 1)]

theorem whole_nextPass (previous : List ScanResult) :
    (nextPass floats view options mode value previous).whole =
      (scanNext floats view options mode value .never previous).1 :=
  wholeFrom_nextPass previous [] 0

/-- Where the limit does not cut them, the survivors are what an uncancelled scan leaves. -/
theorem scanNext_survivors {cancel : CancelFlag} (going : cancel.done = false)
    {previous : List ScanResult}
    (uncut : (previous.filterMap (survivor floats view options mode value)).length ≤
      options.maxResults) :
    (scanNext floats view options mode value cancel previous).1 =
      previous.filterMap (survivor floats view options mode value) := by
  simp only [scanNext, going, Bool.false_eq_true, ↓reduceIte]
  by_cases limit : options.maxResults = 0
  · have none_ : previous.filterMap (survivor floats view options mode value) = [] :=
      List.eq_nil_of_length_eq_zero (by omega)
    rw [none_]
    exact narrowLoop_none previous (List.filterMap_eq_nil_iff.mp none_) 0 []
  · rw [narrowLoop_take going previous (by rw [List.length_nil]; omega), List.nil_append]
    apply List.take_of_length_le
    rw [List.length_nil]
    omega

end MemoryScanner

namespace PointerScanner

variable (view : TargetView) (narrow : WideText → Text) (newTarget : Nat)

/-- One chain of a rescan. The chains stay where they are until the survivors replace them. -/
def filterPass (chains : List PointerChain) : Pass PointerChain where
  given := chains
  cleared := false
  visit := fun kept chain =>
    (if stillResolves view narrow newTarget chain then kept ++ [chain] else kept, false)

/-- `runFilter` as a worker. What it refuses is over before it begins. -/
def filterStart (chains : List PointerChain) (cancel : Bool) : Job PointerChain :=
  let job := (filterPass view narrow newTarget chains).start cancel
  if !view.attached || chains.isEmpty then { job with phase := .finished } else job

variable {view} {narrow} {newTarget}

theorem wholeFrom_filterPass {chains : List PointerChain} (rest kept : List PointerChain) :
    (filterPass view narrow newTarget chains).wholeFrom rest kept =
      kept ++ rest.filter (stillResolves view narrow newTarget) := by
  induction rest generalizing kept with
  | nil => exact (List.append_nil kept).symm
  | cons chain rest ih =>
      unfold Pass.wholeFrom
      simp only [filterPass, Bool.false_eq_true, ↓reduceIte] at ih ⊢
      rw [ih]
      cases resolves : stillResolves view narrow newTarget chain with
      | true =>
          rw [List.filter_cons_of_pos resolves, if_pos rfl, List.append_assoc,
            List.singleton_append]
      | false => rw [List.filter_cons_of_neg (by simp [resolves]), if_neg Bool.false_ne_true]

end PointerScanner

/-- Whenever a next scan and a rescan are cancelled. Until its end the next scan leaves the cleared
list, then all that an uncancelled scan leaves, which is every candidate that passes where the
limit does not cut them, or the candidates that it was given. The rescan leaves its chains, or
in the end exactly those that still resolve. Both come to their end. -/
theorem rescans_install (floats : FloatSteps Epsilon) (view : TargetView)
    (options : ScanOptions Epsilon) (mode : ScanMode) (value : ScanValue)
    (previous : List ScanResult) (narrow : WideText → Text) (newTarget : Nat)
    (chains : List PointerChain) (cancel : Bool) (events : List Event) :
    (let pass := nextPass floats view options mode value previous
      let job := Runs.run pass.step (pass.start cancel) events
      let survivors := previous.filterMap (survivor floats view options mode value)
      (job.left ≠ 0 → job.installed = []) ∧
        (job.left = 0 → job.installed = previous ∨
          job.installed = (scanNext floats view options mode value .never previous).1 ∧
            (survivors.length ≤ options.maxResults → job.installed = survivors)) ∧
        (previous.length + 3 ≤ events.count .work → job.left = 0)) ∧
    (let pass := filterPass view narrow newTarget chains
      let job := Runs.run pass.step (filterStart view narrow newTarget chains cancel) events
      (job.left ≠ 0 → job.installed = chains) ∧
        (job.left = 0 → job.installed = chains ∨
          job.installed = chains.filter (stillResolves view narrow newTarget)) ∧
        (chains.length + 3 ≤ events.count .work → job.left = 0)) := by
  constructor
  · intro pass job survivors
    obtain ⟨meanwhile, ended, ends⟩ := Pass.installs pass cancel events
    refine ⟨meanwhile, fun finished => ?_, ends⟩
    rcases ended finished with given | whole
    · exact Or.inl given
    · rw [whole_nextPass] at whole
      refine Or.inr ⟨whole, fun uncut => ?_⟩
      rw [whole]
      exact scanNext_survivors rfl uncut
  · intro pass job
    by_cases refused : (!view.attached || chains.isEmpty) = true
    · have started : filterStart view narrow newTarget chains cancel =
          ⟨cancel, .finished, chains⟩ := by
        unfold filterStart
        rw [if_pos refused]
        rfl
      obtain ⟨flag, same⟩ := @Pass.finished_stays _ pass cancel chains events
      have stays : job = ⟨flag, .finished, chains⟩ := by
        show Runs.run pass.step (filterStart view narrow newTarget chains cancel) events = _
        rw [started]
        exact same
      rw [stays]
      exact ⟨fun _ => rfl, fun _ => Or.inl rfl, fun _ => rfl⟩
    · have started : filterStart view narrow newTarget chains cancel = pass.start cancel := by
        unfold filterStart
        rw [if_neg refused]
      have same : job = Runs.run pass.step (pass.start cancel) events := by
        show Runs.run pass.step (filterStart view narrow newTarget chains cancel) events = _
        rw [started]
      rw [same]
      obtain ⟨meanwhile, ended, ends⟩ := Pass.installs pass cancel events
      refine ⟨meanwhile, fun finished => ?_, ends⟩
      have whole : pass.whole = chains.filter (stillResolves view narrow newTarget) :=
        wholeFrom_filterPass chains []
      rw [← whole]
      exact ended finished

end PointerLab
