import PointerLab.MemoryScanner

set_option autoImplicit false

/- `engine_scan/MemoryScanner.cpp`: the next scan, which narrows the results of an earlier
one, and the comparisons it makes. -/
namespace PointerLab.MemoryScanner

open Domain Sweep TargetView

/-- The comparison of a floating-point step, beside those of `Floats`. -/
structure FloatSteps (Epsilon : Type) extends Floats Epsilon where
  /-- `fabs(c - (p + d)) <= epsilon`, or with `p - d`. -/
  stepped : ScanMode → ValueType → List UInt8 → List UInt8 → List UInt8 → Epsilon → Bool

/-- No floating-point number is compared with another. -/
def noFloatSteps : FloatSteps Unit :=
  { noFloats with stepped := fun _ _ _ _ _ _ => false }

variable {Epsilon : Type} (floats : FloatSteps Epsilon)

/-- A stored integer as its bits. -/
def storedBits (type : ValueType) (bytes : List UInt8) : BitVec (8 * valueTypeSize type) :=
  BitVec.ofNat _ (littleEndian bytes)

/-- `relativeCompare`: the modes that need the previous value as well. Integers wrap. -/
def relativeCompare (mode : ScanMode) (type : ValueType) (current previous delta : List UInt8)
    (epsilon : Epsilon) : Bool :=
  let size := valueTypeSize type
  if size == 0 then false
  else
    let c := unpack size current
    let p := unpack size previous
    let d := unpack size delta
    if type == .float || type == .double then
      match mode with
      | .increased => floats.bigger type c p
      | .decreased => floats.smaller type c p
      | .increasedBy | .decreasedBy => floats.stepped mode type c p d epsilon
      | _ => false
    else
      match mode with
      | .increased => integerValue type p < integerValue type c
      | .decreased => integerValue type c < integerValue type p
      | .increasedBy => storedBits type c == storedBits type p + storedBits type d
      | .decreasedBy => storedBits type c == storedBits type p - storedBits type d
      | _ => false

/-- `compareValues`, the form that knows the first scan. -/
def compareValues (mode : ScanMode) (value : ScanValue) (current previous first : List UInt8)
    (epsilon : Epsilon) : Bool :=
  match mode with
  | .exact =>
      if current.length < value.bytes.length || value.bytes.isEmpty then false
      else
        matchesExact floats.toFloats current value.bytes value.mask value.type epsilon
          value.caseInsensitive
  | .valueBetween | .biggerThan | .smallerThan =>
      absoluteCompare floats.toFloats mode value.type current value.bytes value.bytes2
  | .changed => current != previous
  | .unchanged => current == previous
  | .sameAsFirst => current == first
  | .increased | .decreased | .increasedBy | .decreasedBy =>
      relativeCompare floats mode value.type current previous value.bytes epsilon
  | .unknownInitial => true

def modeSupportsType (mode : ScanMode) (type : ValueType) : Bool :=
  if type != .bytes && !isStringType type then true
  else
    match mode with
    | .exact | .changed | .unchanged | .sameAsFirst => true
    | _ => false

/-- What a candidate held on the last scan. -/
def oldBytes (candidate : ScanResult) : List UInt8 :=
  if candidate.current.isEmpty then candidate.previous else candidate.current

/-- What it held on the first. A table without first-scan values falls back on the last. -/
def firstBytes (candidate : ScanResult) : List UInt8 :=
  if candidate.first.isEmpty then oldBytes candidate else candidate.first

/-- How many bytes of it are read. A value without a width takes the width of the result. -/
def readWidth (value : ScanValue) (candidate : ScanResult) : Nat :=
  if value.bytes.length != 0 then value.bytes.length else (oldBytes candidate).length

section Next

variable (view : TargetView) (options : ScanOptions Epsilon) (mode : ScanMode) (value : ScanValue)

/-- What a candidate holds now, if all of it can be read. -/
def holds (candidate : ScanResult) : Option (List UInt8) :=
  let width := readWidth value candidate
  if width == 0 then none
  else
    match readBytes view candidate.address width with
    | .error _ => none
    | .ok current => if current.length != width then none else some current

/-- The record of a candidate that stays. -/
def recordOf (candidate : ScanResult) (current : List UInt8) : ScanResult :=
  { address := candidate.address, previous := oldBytes candidate, current,
    first := firstBytes candidate }

/-- The loop over the candidates. One that cannot be read is passed over, also by the test of
the limit. -/
def narrowLoop (cancel : CancelFlag) : Nat → List ScanResult → List ScanResult → List ScanResult
  | _, [], next => next
  | i, candidate :: rest, next =>
      if cancel.round i then next
      else
        match holds view value candidate with
        | none => narrowLoop cancel (i + 1) rest next
        | some current =>
            let kept := compareValues floats mode value current (oldBytes candidate)
              (firstBytes candidate) options.floatEpsilon
            let grown := if kept then next ++ [recordOf candidate current] else next
            if options.maxResults ≤ grown.length then grown
            else narrowLoop cancel (i + 1) rest grown

/-- `ScanJob::scanNext`: the results it leaves, and what it says. -/
def scanNext (cancel : CancelFlag) (previous : List ScanResult) : List ScanResult × String :=
  let next := narrowLoop floats view options mode value cancel 0 previous []
  if cancel.done then (previous, "Next scan cancelled. The previous results were kept.")
  else (next, "Next scan complete")

/-- The record that an uncancelled scan makes of a candidate, if it stays. -/
def survivor (candidate : ScanResult) : Option ScanResult :=
  match holds view value candidate with
  | none => none
  | some current =>
      if compareValues floats mode value current (oldBytes candidate) (firstBytes candidate)
        options.floatEpsilon then some (recordOf candidate current) else none

end Next

variable {floats} {view : TargetView} {options : ScanOptions Epsilon} {mode : ScanMode}
  {value : ScanValue}

section Survivors

variable {candidate : ScanResult}

theorem survivor_unread (held : holds view value candidate = none) :
    survivor floats view options mode value candidate = none := by
  unfold survivor
  rw [held]

theorem survivor_kept {current : List UInt8} (held : holds view value candidate = some current)
    (asked : compareValues floats mode value current (oldBytes candidate) (firstBytes candidate)
      options.floatEpsilon = true) :
    survivor floats view options mode value candidate = some (recordOf candidate current) := by
  unfold survivor
  rw [held]
  exact if_pos asked

theorem survivor_dropped {current : List UInt8} (held : holds view value candidate = some current)
    (asked : compareValues floats mode value current (oldBytes candidate) (firstBytes candidate)
      options.floatEpsilon = false) :
    survivor floats view options mode value candidate = none := by
  unfold survivor
  rw [held]
  exact if_neg (Bool.eq_false_iff.mp asked)

end Survivors

theorem holds_some {candidate : ScanResult} {current : List UInt8}
    (held : holds view value candidate = some current) :
    current.length = readWidth value candidate ∧ current ≠ [] ∧
      readBytes view candidate.address (readWidth value candidate) = .ok current := by
  unfold holds at held
  dsimp only at held
  split at held
  · contradiction
  · rename_i wide
    split at held
    · contradiction
    · rename_i bytes answered
      split at held
      · contradiction
      · rename_i whole
        obtain rfl := Option.some.inj held
        have length : bytes.length = readWidth value candidate := by simpa using whole
        refine ⟨length, fun empty => ?_, answered⟩
        rw [empty, List.length_nil] at length
        rw [← length] at wide
        exact wide rfl

/-- A candidate whose bytes can all be read holds them. -/
theorem holds_readable {candidate : ScanResult} {width : Nat}
    (attached : view.attached = true) (asked : readWidth value candidate = width)
    (positive : 0 < width)
    (whole : (readable view.memory candidate.address width).length = width) :
    holds view value candidate = some (readable view.memory candidate.address width) := by
  have answered := readBytes_eq attached (whole ▸ positive)
  unfold holds
  simp only [asked, answered, whole, bne_self_eq_false, Bool.false_eq_true, ↓reduceIte]
  rw [if_neg]
  rw [beq_iff_eq]
  omega

/-- The loop only ever keeps survivors. -/
theorem mem_narrowLoop {cancel : CancelFlag} {entry : ScanResult} (candidates : List ScanResult)
    {i : Nat} {next : List ScanResult}
    (kept : entry ∈ narrowLoop floats view options mode value cancel i candidates next) :
    entry ∈ next ∨ ∃ candidate ∈ candidates,
      survivor floats view options mode value candidate = some entry := by
  induction candidates generalizing i next with
  | nil => exact Or.inl kept
  | cons candidate rest ih =>
      have later {next : List ScanResult}
          (kept : entry ∈ narrowLoop floats view options mode value cancel (i + 1) rest next) :
          entry ∈ next ∨ ∃ other ∈ candidate :: rest,
            survivor floats view options mode value other = some entry := by
        rcases ih kept with old | ⟨other, inRest, same⟩
        · exact Or.inl old
        · exact Or.inr ⟨other, List.mem_cons_of_mem _ inRest, same⟩
      unfold narrowLoop at kept
      split at kept
      · exact Or.inl kept
      · cases held : holds view value candidate with
        | none =>
            rw [held] at kept
            exact later kept
        | some current =>
            simp only [held] at kept
            generalize asked : compareValues floats mode value current (oldBytes candidate)
              (firstBytes candidate) options.floatEpsilon = passes at kept
            generalize joined : (if passes = true then next ++ [recordOf candidate current]
              else next) = grown at kept
            have here (inGrown : entry ∈ grown) : entry ∈ next ∨ ∃ other ∈ candidate :: rest,
                survivor floats view options mode value other = some entry := by
              rw [← joined] at inGrown
              cases passes with
              | false => exact Or.inl inGrown
              | true =>
                  rcases List.mem_append.mp inGrown with old | new
                  · exact Or.inl old
                  · refine Or.inr ⟨candidate, List.mem_cons_self, ?_⟩
                    rw [survivor_kept held asked, List.mem_singleton.mp new]
            split at kept
            · exact here kept
            · rcases later kept with inGrown | found
              · exact here inGrown
              · exact Or.inr found

/-- A comparison that never holds lets no candidate stay. -/
theorem survivor_none {candidate : ScanResult}
    (fails : ∀ current previous first epsilon, current.length = readWidth value candidate →
      compareValues floats mode value current previous first epsilon = false) :
    survivor floats view options mode value candidate = none := by
  unfold survivor
  split
  · rfl
  · rename_i current held
    rw [fails _ _ _ _ (holds_some held).1, if_neg Bool.false_ne_true]

/-- Where no candidate stays the loop adds nothing, cancelled or not. -/
theorem narrowLoop_none {cancel : CancelFlag} (candidates : List ScanResult)
    (gone : ∀ candidate ∈ candidates, survivor floats view options mode value candidate = none)
    (i : Nat) (next : List ScanResult) :
    narrowLoop floats view options mode value cancel i candidates next = next := by
  induction candidates generalizing i with
  | nil => rfl
  | cons candidate rest ih =>
      have later := ih fun other inRest => gone other (List.mem_cons_of_mem _ inRest)
      have here := gone candidate List.mem_cons_self
      unfold survivor at here
      unfold narrowLoop
      split
      · rfl
      · cases held : holds view value candidate with
        | none => exact later _
        | some current =>
            simp only [held, ite_eq_right_iff, reduceCtorEq, imp_false] at here
            dsimp only
            rw [if_neg here]
            split
            · rfl
            · exact later _

/-- An uncancelled loop keeps the survivors until it has as many as it may. -/
theorem narrowLoop_take {cancel : CancelFlag} (open_ : cancel.done = false)
    (candidates : List ScanResult) {i : Nat} {next : List ScanResult}
    (room : next.length < options.maxResults) :
    narrowLoop floats view options mode value cancel i candidates next =
      next ++ (candidates.filterMap (survivor floats view options mode value)).take
        (options.maxResults - next.length) := by
  induction candidates generalizing i next with
  | nil => simp only [narrowLoop, List.filterMap_nil, List.take_nil, List.append_nil]
  | cons candidate rest ih =>
      unfold narrowLoop
      rw [if_neg (by rw [CancelFlag.going open_]; decide)]
      cases held : holds view value candidate with
      | none =>
          rw [List.filterMap_cons_none (survivor_unread held)]
          exact ih room
      | some current =>
          dsimp only
          cases asked : compareValues floats mode value current (oldBytes candidate)
            (firstBytes candidate) options.floatEpsilon with
          | false =>
              rw [List.filterMap_cons_none (survivor_dropped held asked), if_neg Bool.false_ne_true,
                if_neg (by omega)]
              exact ih room
          | true =>
              have stays := survivor_kept held asked
              obtain ⟨left, more⟩ := Nat.exists_eq_add_of_lt room
              have after : options.maxResults - next.length = left + 1 := by omega
              rw [List.filterMap_cons_some stays, if_pos rfl, after, List.take_succ_cons]
              have grown : (next ++ [recordOf candidate current]).length = next.length + 1 := by
                rw [List.length_append, List.length_singleton]
              by_cases full : options.maxResults ≤ next.length + 1
              · have last : left = 0 := by omega
                rw [grown, if_pos full, last, List.take_zero]
              · have fewer : options.maxResults - (next.length + 1) = left := by omega
                rw [grown, if_neg full, ih (by omega), grown, fewer, List.append_assoc,
                  List.singleton_append]

/-- With a limit of zero it stops at the first candidate that it can read. -/
theorem narrowLoop_zero {cancel : CancelFlag} (open_ : cancel.done = false)
    (zero : options.maxResults = 0) (candidates : List ScanResult) {i : Nat} :
    narrowLoop floats view options mode value cancel i candidates [] =
      ((candidates.filter fun candidate => (holds view value candidate).isSome).take 1).filterMap
        (survivor floats view options mode value) := by
  induction candidates generalizing i with
  | nil => rfl
  | cons candidate rest ih =>
      unfold narrowLoop
      rw [if_neg (by rw [CancelFlag.going open_]; decide)]
      cases held : holds view value candidate with
      | none =>
          rw [List.filter_cons_of_neg (by rw [held]; decide)]
          exact ih
      | some current =>
          dsimp only
          rw [List.filter_cons_of_pos (by rw [held]; rfl), List.take_succ_cons, List.take_zero,
            if_pos (by omega), List.nil_append]
          cases asked : compareValues floats mode value current (oldBytes candidate)
            (firstBytes candidate) options.floatEpsilon with
          | false => rw [List.filterMap_cons_none (survivor_dropped held asked)]; rfl
          | true => rw [List.filterMap_cons_some (survivor_kept held asked)]; rfl

/-- With room for all its candidates it keeps every survivor. -/
theorem narrowLoop_eq {cancel : CancelFlag} (open_ : cancel.done = false)
    (candidates : List ScanResult) {i : Nat} {next : List ScanResult}
    (room : next.length + candidates.length ≤ options.maxResults) :
    narrowLoop floats view options mode value cancel i candidates next =
      next ++ candidates.filterMap (survivor floats view options mode value) := by
  cases candidates with
  | nil => simp only [narrowLoop, List.filterMap_nil, List.append_nil]
  | cons candidate rest =>
      have few := List.length_filterMap_le (survivor floats view options mode value)
        (candidate :: rest)
      rw [List.length_cons] at room few
      rw [narrowLoop_take open_ _ (by omega), List.take_of_length_le (by omega)]

end PointerLab.MemoryScanner
