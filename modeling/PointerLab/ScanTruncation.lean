import PointerLab.NextScanHistory
import PointerLab.ScanFirst

set_option autoImplicit false

/- The result limit over the runs of a scan job: what each scan leaves out for it, and what
`progress().truncated` says then. -/
namespace PointerLab.MemoryScanner

open Domain Sweep TargetView Runs

variable {Epsilon : Type} (floats : FloatSteps Epsilon)

section Loop

variable (view : TargetView) (options : ScanOptions Epsilon) (mode : ScanMode) (value : ScanValue)

/-- The candidates behind the one at which the loop of an uncancelled next scan meets the limit. -/
def unexamined : List ScanResult → List ScanResult → List ScanResult
  | [], _ => []
  | candidate :: rest, next =>
      match holds view value candidate with
      | none => unexamined rest next
      | some current =>
          let kept := compareValues floats mode value current (oldBytes candidate)
            (firstBytes candidate) options.floatEpsilon
          let grown := if kept then next ++ [recordOf candidate current] else next
          if options.maxResults ≤ grown.length then rest else unexamined rest grown

end Loop

/-- A scan that has ended: the job's options at its time, and its candidates. -/
inductive Ended (Epsilon : Type) where
  | first (scan : First Epsilon)
  | next (scan : Next) (options : ScanOptions Epsilon) (previous : List ScanResult)

/-- For the limit the scan has left an address that matches out of its results, or a candidate
unexamined. -/
def LeftOut (results : List ScanResult) : Ended Epsilon → Prop
  | .first scan =>
      scan.cancel = .never ∧ ∃ limit,
        ∃ hit ∈ { scan with options := { scan.options with maxResults := limit } }.hits floats,
          hit.address ∉ results.map (·.address)
  | .next scan options previous =>
      scan.cancel.done = false ∧
        ((∃ candidate ∈ previous, ∃ entry,
          survivor floats scan.view options scan.mode scan.value candidate = some entry ∧
            entry.address ∉ results.map (·.address)) ∨
          unexamined floats scan.view options scan.mode scan.value previous [] ≠ [])

/-- `ScanJob` between its scans, and the scan that it ran last. -/
structure ScanJob (Epsilon : Type) where
  options : ScanOptions Epsilon
  results : List ScanResult := []
  truncated : Bool := false
  last : Option (Ended Epsilon) := none

/-- A call of a job. A scan is seen with its end. -/
inductive ScanCall (Epsilon : Type) where
  | setOptions (options : ScanOptions Epsilon)
  | first (view : TargetView) (mode : ScanMode) (value : ScanValue) (cancel : Cancel)
  | next (scan : Next) (previous : List ScanResult)

/-- Both scans clear `truncated_` when they start. -/
def ScanJob.call (job : ScanJob Epsilon) : ScanCall Epsilon → ScanJob Epsilon
  | .setOptions options => { job with options }
  | .first view mode value cancel =>
      let scan := (scanFirst floats.toFloats view job.options mode value cancel).1
      { job with
        results := scan.results, truncated := scan.truncated,
        last := some (.first ⟨view, job.options, mode, value, cancel⟩) }
  | .next scan previous =>
      { job with
        results := narrow floats job.options previous scan, truncated := false,
        last := some (.next scan job.options previous) }

/-- Where the last scan has left something out for the limit, `progress()` says so. -/
def Told (job : ScanJob Epsilon) : Prop :=
  ∀ scan ∈ job.last, LeftOut floats job.results scan → job.truncated = true

/-- Too few of the candidates before the last stay to meet the limit, or none can be read. -/
def Uncut (options : ScanOptions Epsilon) (scan : Next) (previous : List ScanResult) : Prop :=
  (previous.dropLast.filterMap
      (survivor floats scan.view options scan.mode scan.value)).length < options.maxResults ∨
    ∀ candidate ∈ previous.dropLast, holds scan.view scan.value candidate = none

/-- A first scan always says so, a next scan only where there is nothing to say. -/
def Spared (job : ScanJob Epsilon) : ScanCall Epsilon → Prop
  | .setOptions _ => True
  | .first _ _ _ _ => True
  | .next scan previous => scan.cancel.done = true ∨ Uncut floats job.options scan previous

variable {floats} {view : TargetView} {options : ScanOptions Epsilon} {mode : ScanMode}
  {value : ScanValue}

/-- With room for more, nothing stays unexamined just when the candidates before the last one
leave room. -/
theorem unexamined_room (candidates : List ScanResult) {next : List ScanResult}
    (room : next.length < options.maxResults) :
    unexamined floats view options mode value candidates next = [] ↔
      next.length + (candidates.dropLast.filterMap
        (survivor floats view options mode value)).length < options.maxResults := by
  induction candidates generalizing next with
  | nil => exact iff_of_true rfl room
  | cons candidate rest ih =>
      cases rest with
      | nil =>
          refine iff_of_true ?_ room
          unfold unexamined
          cases holds view value candidate with
          | none => rfl
          | some current => exact ite_self _
      | cons following more =>
          rw [List.dropLast_cons_cons]
          unfold unexamined
          cases held : holds view value candidate with
          | none =>
              rw [List.filterMap_cons_none (survivor_unread held)]
              exact ih room
          | some current =>
              dsimp only
              cases asked : compareValues floats mode value current (oldBytes candidate)
                (firstBytes candidate) options.floatEpsilon with
              | false =>
                  rw [List.filterMap_cons_none (survivor_dropped held asked),
                    if_neg Bool.false_ne_true, if_neg (Nat.not_le_of_lt room)]
                  exact ih room
              | true =>
                  have stays := survivor_kept held asked
                  have grown : (next ++ [recordOf candidate current]).length = next.length + 1 := by
                    rw [List.length_append, List.length_singleton]
                  rw [List.filterMap_cons_some stays, List.length_cons, if_pos rfl, grown]
                  by_cases full : options.maxResults ≤ next.length + 1
                  · rw [if_pos full]
                    exact iff_of_false (List.cons_ne_nil _ _) (by omega)
                  · rw [if_neg full, ih (by omega), grown]
                    omega

/-- A limit of zero is met by the first candidate that can be read. -/
theorem unexamined_zero (limit : options.maxResults = 0) (candidates next : List ScanResult) :
    unexamined floats view options mode value candidates next = [] ↔
      ∀ candidate ∈ candidates.dropLast, holds view value candidate = none := by
  induction candidates generalizing next with
  | nil => exact iff_of_true rfl (fun candidate inside => absurd inside List.not_mem_nil)
  | cons candidate rest ih =>
      cases rest with
      | nil =>
          refine iff_of_true ?_ (fun candidate inside => absurd inside List.not_mem_nil)
          unfold unexamined
          cases holds view value candidate with
          | none => rfl
          | some current => exact ite_self _
      | cons following more =>
          rw [List.dropLast_cons_cons, List.forall_mem_cons]
          unfold unexamined
          cases held : holds view value candidate with
          | none => exact (ih next).trans (and_iff_right rfl).symm
          | some current =>
              dsimp only
              rw [limit, if_pos (Nat.zero_le _)]
              exact iff_of_false (List.cons_ne_nil _ _) (fun unread => nomatch unread.1)

theorem unexamined_eq_nil_iff {scan : Next} (previous : List ScanResult) :
    unexamined floats scan.view options scan.mode scan.value previous [] = [] ↔
      Uncut floats options scan previous := by
  unfold Uncut
  by_cases limit : options.maxResults = 0
  · rw [unexamined_zero limit, limit]
    exact (or_iff_right (Nat.not_lt_zero _)).symm
  · have room : ([] : List ScanResult).length < options.maxResults := Nat.pos_of_ne_zero limit
    rw [unexamined_room previous room, List.length_nil, Nat.zero_add]
    refine (or_iff_left_of_imp fun unread => ?_).symm
    have none_ : previous.dropLast.filterMap
        (survivor floats scan.view options scan.mode scan.value) = [] := by
      refine List.filterMap_eq_nil_iff.mpr fun candidate inside => ?_
      simp only [survivor, unread candidate inside]
    rw [none_]
    exact Nat.pos_of_ne_zero limit

/-- Where nothing stays unexamined every candidate that passes is kept. -/
theorem narrowLoop_whole (candidates : List ScanResult) {cancel : CancelFlag}
    (going : cancel.done = false) (i : Nat) (next : List ScanResult)
    (whole : unexamined floats view options mode value candidates next = []) :
    narrowLoop floats view options mode value cancel i candidates next =
      next ++ candidates.filterMap (survivor floats view options mode value) := by
  induction candidates generalizing i next with
  | nil => exact (List.append_nil next).symm
  | cons candidate rest ih =>
      unfold unexamined at whole
      unfold narrowLoop
      rw [if_neg (CancelFlag.going going i ▸ Bool.false_ne_true)]
      cases held : holds view value candidate with
      | none =>
          rw [held] at whole
          rw [List.filterMap_cons_none (survivor_unread held)]
          exact ih _ _ whole
      | some current =>
          rw [held] at whole
          dsimp only at whole ⊢
          generalize joined : (if compareValues floats mode value current (oldBytes candidate)
            (firstBytes candidate) options.floatEpsilon = true then
              next ++ [recordOf candidate current] else next) = grown at whole ⊢
          have kept : next ++ (candidate :: rest).filterMap
                (survivor floats view options mode value) =
              grown ++ rest.filterMap (survivor floats view options mode value) := by
            rw [← joined]
            split
            · rename_i asked
              rw [List.filterMap_cons_some (survivor_kept held asked), List.append_assoc,
                List.singleton_append]
            · rename_i asked
              rw [List.filterMap_cons_none (survivor_dropped held (Bool.eq_false_iff.mpr asked))]
          rw [kept]
          by_cases full : options.maxResults ≤ grown.length
          · rw [if_pos full] at whole ⊢
            rw [whole, List.filterMap_nil, List.append_nil]
          · rw [if_neg full] at whole ⊢
            exact ih _ _ whole

/-- An uncancelled first scan that leaves an address out says so. -/
theorem truncated_of_leftOut {scan : First Epsilon}
    (left : LeftOut floats (scan.hits floats) (.first scan)) :
    (scanFirst floats.toFloats scan.view scan.options scan.mode scan.value
      scan.cancel).1.truncated = true := by
  obtain ⟨never, limit, hit, inside, outside⟩ := left
  unfold First.hits at inside outside
  rw [never] at outside ⊢
  dsimp only at inside
  rw [never] at inside
  unfold scanFirst at inside outside ⊢
  split at inside
  · exact absurd inside List.not_mem_nil
  · rename_i some_
    rw [if_neg some_] at outside ⊢
    have wide := @scanRegions_collected _ floats.toFloats scan.view
      { scan.options with maxResults := limit } scan.mode scan.value 0 _ _ scan.view.regions
      (Collected.nil limit)
    have cut := @scanRegions_collected _ floats.toFloats scan.view scan.options scan.mode
      scan.value 0 _ _ scan.view.regions (Collected.nil scan.options.maxResults)
    dsimp only at inside outside ⊢
    rw [wide.results] at inside
    apply Decidable.byContradiction
    intro quiet
    rw [Bool.not_eq_true] at quiet
    rw [cut.all quiet] at outside
    exact outside (List.mem_map_of_mem (List.mem_of_mem_take inside))

theorem leftOut_next {scan : Next} {previous : List ScanResult} :
    LeftOut floats (narrow floats options previous scan) (.next scan options previous) ↔
      ¬ (scan.cancel.done = true ∨ Uncut floats options scan previous) := by
  rw [← unexamined_eq_nil_iff, not_or, Bool.not_eq_true]
  refine and_congr_right fun going => or_iff_right_of_imp ?_
  rintro ⟨candidate, listed, entry, stays, outside⟩ whole
  apply outside
  unfold narrow scanNext
  rw [going, if_neg Bool.false_ne_true]
  rw [narrowLoop_whole previous going 0 [] whole, List.nil_append]
  exact List.mem_map_of_mem (List.mem_filterMap.mpr ⟨candidate, listed, stays⟩)

/-- One call. -/
theorem told_call {job : ScanJob Epsilon} (told : Told floats job) (call : ScanCall Epsilon) :
    Told floats (job.call floats call) ↔ Spared floats job call := by
  cases call with
  | setOptions options => exact iff_of_true told trivial
  | first view mode value cancel =>
      refine iff_of_true ?_ trivial
      intro scan last left
      obtain rfl := Option.some.inj last
      exact truncated_of_leftOut left
  | next scan previous =>
      constructor
      · intro after
        by_contra cut
        exact Bool.false_ne_true (after _ rfl (leftOut_next.mpr cut))
      · intro spared ended last left
        obtain rfl := Option.some.inj last
        exact absurd spared (leftOut_next.mp left)

/-- Along every sequence of calls: `progress().truncated` tells of all that the limit has cut
exactly when no next scan is cut. -/
theorem truncated_iff (options : ScanOptions Epsilon) (calls : List (ScanCall Epsilon)) :
    (∀ done, done <+: calls → Told floats (run (ScanJob.call floats) { options } done)) ↔
      Follows (ScanJob.call floats) (Spared floats) { options } calls := by
  refine forall_prefix_iff (Told floats) (fun job call told => told_call told call) ?_ calls
  intro scan last
  contradiction

/-- Two bytes that are the same. -/
def twinView : TargetView where
  regions := [{ base := 0x10000, size := 2, readable := true }]
  memory := fun address => if address = 0x10000 ∨ address = 0x10001 then some 7 else none

def sevens : ScanValue := { type := .uInt8, bytes := [7] }

/-- Both are found, then the limit is lowered to one and a next scan made. -/
def loweredCalls : List (ScanCall Unit) :=
  [.first twinView .exact sevens .never,
    .setOptions { maxResults := 1, floatEpsilon := () },
    .next { view := twinView, mode := .exact, value := sevens, cancel := .never }
      [⟨0x10000, [7], [7], [7]⟩, ⟨0x10001, [7], [7], [7]⟩]]

/-- The second candidate is left unexamined and nothing says so. -/
theorem loweredCalls_untold :
    (run (ScanJob.call noFloatSteps) { options := { floatEpsilon := () } }
      (loweredCalls.take 2)).results = [⟨0x10000, [7], [7], [7]⟩, ⟨0x10001, [7], [7], [7]⟩] ∧
    (let job := run (ScanJob.call noFloatSteps) { options := { floatEpsilon := () } } loweredCalls;
      job.results = [⟨0x10000, [7], [7], [7]⟩] ∧ job.truncated = false ∧
        ¬ Told noFloatSteps job) := by
  refine ⟨by decide, by decide, rfl, fun told => ?_⟩
  have cut : LeftOut noFloatSteps [⟨0x10000, [7], [7], [7]⟩]
      (.next { view := twinView, mode := .exact, value := sevens, cancel := .never }
        ({ maxResults := 1, floatEpsilon := () } : ScanOptions Unit)
        [⟨0x10000, [7], [7], [7]⟩, ⟨0x10001, [7], [7], [7]⟩]) :=
    ⟨rfl, Or.inr (by decide)⟩
  exact Bool.false_ne_true (told _ rfl cut)

end PointerLab.MemoryScanner
