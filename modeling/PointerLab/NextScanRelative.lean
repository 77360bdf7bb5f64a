import PointerLab.IntegerValues
import PointerLab.NextScanHistory

set_option autoImplicit false

/- The modes of a next scan that need the previous value, for the integer types: what they
keep between them, and what the arithmetic of a step comes to. -/
namespace PointerLab.MemoryScanner

open Domain MachineIntegers Sweep TargetView Runs

variable {Epsilon : Type} {floats : FloatSteps Epsilon}

/-- A value that a scan of the type carries: none, or one as wide as the type. -/
structure OfType (type : ValueType) (value : ScanValue) : Prop where
  named : value.type = type
  width : value.bytes = [] ∨ value.bytes.length = valueTypeSize type

/-- All of a value can be read. -/
def StillReadable (view : TargetView) (address size : Nat) : Prop :=
  view.attached = true ∧ ∀ index < size, view.memory (address + index) ≠ none

/-- The record of a candidate that is read again. -/
def recordNow (view : TargetView) (size : Nat) (candidate : ScanResult) : ScanResult :=
  recordOf candidate (readable view.memory candidate.address size)

/-- Whether a next scan keeps a candidate. -/
def keeps (floats : FloatSteps Epsilon) (scan : Rescan Epsilon) (candidate : ScanResult) : Bool :=
  (survivor floats scan.view scan.options scan.mode scan.value candidate).isSome

variable {type : ValueType} {current previous delta : List UInt8} {epsilon : Epsilon}

theorem unpack_length (size : Nat) (bytes : List UInt8) : (unpack size bytes).length = size := by
  unfold unpack
  split
  · rename_i enough
    rw [List.length_take, Nat.min_eq_left enough]
  · exact List.length_replicate

theorem unpack_eq {size : Nat} {bytes : List UInt8} (length : bytes.length = size) :
    unpack size bytes = bytes := by
  rw [unpack, if_pos (by omega), ← length, List.take_length]

/-- The comparisons of an integer type, with what was unpacked. -/
theorem relativeCompare_integer (integer : isIntegerType type = true) (mode : ScanMode) :
    relativeCompare floats mode type current previous delta epsilon =
      match mode with
      | .increased =>
          integerValue type (unpack (valueTypeSize type) previous) <
            integerValue type (unpack (valueTypeSize type) current)
      | .decreased =>
          integerValue type (unpack (valueTypeSize type) current) <
            integerValue type (unpack (valueTypeSize type) previous)
      | .increasedBy =>
          storedBits type (unpack (valueTypeSize type) current) ==
            storedBits type (unpack (valueTypeSize type) previous) +
              storedBits type (unpack (valueTypeSize type) delta)
      | .decreasedBy =>
          storedBits type (unpack (valueTypeSize type) current) ==
            storedBits type (unpack (valueTypeSize type) previous) -
              storedBits type (unpack (valueTypeSize type) delta)
      | _ => false := by
  have sized : (valueTypeSize type == 0) = false := by
    have positive := valueTypeSize_pos integer
    rw [beq_eq_false_iff_ne]
    omega
  have exact_ : (type == .float || type == .double) = false := by
    cases type <;> first | rfl | contradiction
  cases mode <;> simp only [relativeCompare, sized, exact_, Bool.false_eq_true, ↓reduceIte]

section Partition

variable {first : First Epsilon} {scans : List (Rescan Epsilon)}

theorem widthAfter_ofType {scan : Rescan Epsilon} (ofType : OfType type scan.value) :
    widthAfter (valueTypeSize type) scan = valueTypeSize type := by
  unfold widthAfter
  split
  · rfl
  · rename_i some_
    rcases ofType.width with empty | length
    · simp [empty] at some_
    · exact length

theorem run_widthAfter (ofTypes : ∀ scan ∈ scans, OfType type scan.value) :
    Runs.run widthAfter (valueTypeSize type) scans = valueTypeSize type := by
  induction scans with
  | nil => rfl
  | cons scan rest ih =>
      show Runs.run widthAfter (widthAfter (valueTypeSize type) scan) rest = valueTypeSize type
      rw [widthAfter_ofType (ofTypes scan List.mem_cons_self)]
      exact ih fun other inRest => ofTypes other (List.mem_cons_of_mem _ inRest)

/-- What scans of a type leave is as wide as the type. -/
theorem current_ofType (firstType : OfType type first.value)
    (scanTypes : ∀ scan ∈ scans, OfType type scan.value) {entry : ScanResult}
    (inside : entry ∈ Runs.run (rescan floats) (first.hits floats) scans) :
    entry.current.length = valueTypeSize type ∧ oldBytes entry = entry.current := by
  have tracked := @Tracked.run _ floats _ _ _ _ (@Tracked.start _ floats first) scans
  have nonempty := (tracked.wide (List.ne_nil_of_mem inside)).1
  have width : first.value.bytes.length = valueTypeSize type := by
    rcases firstType.width with empty | length
    · rw [empty, List.length_nil] at nonempty
      omega
    · exact length
  have length := tracked.current entry inside
  rw [width, run_widthAfter scanTypes] at length
  exact ⟨length, tracked.oldBytes_eq inside⟩

/-- What a candidate of the type's width holds, where it can be read. -/
theorem holds_ofType (integer : isIntegerType type = true) {view : TargetView} {value : ScanValue}
    (ofType : OfType type value) {candidate : ScanResult}
    (old : (oldBytes candidate).length = valueTypeSize type) :
    (∀ bytes, holds view value candidate = some bytes →
      bytes = readable view.memory candidate.address (valueTypeSize type) ∧
        bytes.length = valueTypeSize type) ∧
    ((holds view value candidate).isSome = true ↔
      StillReadable view candidate.address (valueTypeSize type)) := by
  have positive := valueTypeSize_pos integer
  have width : readWidth value candidate = valueTypeSize type := by
    unfold readWidth
    rcases ofType.width with empty | length
    · rw [empty, if_neg (by simp)]
      exact old
    · rw [length, if_pos (by rw [bne_iff_ne]; omega)]
  constructor
  · intro bytes held
    obtain ⟨length, _, answered⟩ := holds_some held
    rw [width] at length answered
    exact ⟨readBytes_ok answered, length⟩
  · constructor
    · intro some_
      obtain ⟨bytes, held⟩ := Option.isSome_iff_exists.mp some_
      obtain ⟨length, _, answered⟩ := holds_some held
      rw [width] at length answered
      constructor
      · exact readBytes_attached answered
      · intro index inside
        rw [readBytes_ok answered] at length
        exact ((@lt_readable_length view.memory candidate.address (valueTypeSize type) index).mp
          (by omega)).2 index (Nat.le_refl index)
    · intro still
      rw [holds_readable still.1 width positive (readable_length still.2)]
      rfl

/-- Whether a mode keeps a candidate that holds `bytes` now. -/
def passes (type : ValueType) (mode : ScanMode) (old bytes : List UInt8) : Prop :=
  match mode with
  | .increased => integerValue type old < integerValue type bytes
  | .decreased => integerValue type bytes < integerValue type old
  | .unchanged => bytes = old
  | .changed => bytes ≠ old
  | _ => False

/-- Of two values of an integer type one is bigger, or they are one value. -/
theorem passes_partition {old bytes : List UInt8} (oldLength : old.length = valueTypeSize type)
    (length : bytes.length = valueTypeSize type) :
    (passes type .increased old bytes ∨ passes type .decreased old bytes ∨
        passes type .unchanged old bytes) ∧
      ¬ (passes type .increased old bytes ∧ passes type .decreased old bytes) ∧
      ¬ (passes type .increased old bytes ∧ passes type .unchanged old bytes) ∧
      ¬ (passes type .decreased old bytes ∧ passes type .unchanged old bytes) ∧
      (passes type .changed old bytes ↔
        passes type .increased old bytes ∨ passes type .decreased old bytes) := by
  have apart : integerValue type bytes = integerValue type old ↔ bytes = old :=
    ⟨integerValue_injective length oldLength, congrArg (integerValue type)⟩
  simp only [passes, ne_eq, ← apart]
  omega

theorem compareValues_passes (integer : isIntegerType type = true) {value : ScanValue}
    (ofType : OfType type value) {mode : ScanMode}
    (relative : mode ∈ [.increased, .decreased, .unchanged, .changed])
    {bytes old before : List UInt8} (length : bytes.length = valueTypeSize type)
    (oldLength : old.length = valueTypeSize type) :
    compareValues floats mode value bytes old before epsilon = true ↔
      passes type mode old bytes := by
  have moved : ∀ mode, relativeCompare floats mode value.type bytes old value.bytes epsilon =
      relativeCompare floats mode type bytes old value.bytes epsilon := by
    intro mode
    rw [ofType.named]
  simp only [List.mem_cons, List.not_mem_nil, or_false] at relative
  rcases relative with rfl | rfl | rfl | rfl
  · simp only [compareValues, moved, relativeCompare_integer integer, unpack_eq length,
      unpack_eq oldLength, passes, decide_eq_true_eq]
  · simp only [compareValues, moved, relativeCompare_integer integer, unpack_eq length,
      unpack_eq oldLength, passes, decide_eq_true_eq]
  · simp only [compareValues, passes, beq_iff_eq]
  · simp only [compareValues, passes, bne_iff_ne]

theorem keeps_iff (integer : isIntegerType type = true) {scan : Rescan Epsilon}
    (ofType : OfType type scan.value)
    (relative : scan.mode ∈ [.increased, .decreased, .unchanged, .changed])
    {candidate : ScanResult} (old : (oldBytes candidate).length = valueTypeSize type) :
    keeps floats scan candidate = true ↔
      StillReadable scan.view candidate.address (valueTypeSize type) ∧
        passes type scan.mode (oldBytes candidate)
          (readable scan.view.memory candidate.address (valueTypeSize type)) := by
  obtain ⟨found, some_⟩ := @holds_ofType type integer scan.view _ ofType _ old
  rw [← some_]
  unfold keeps survivor
  cases held : holds scan.view scan.value candidate with
  | none => simp
  | some bytes =>
      obtain ⟨same, length⟩ := found bytes held
      rw [same] at length
      have compared := @compareValues_passes _ floats _ scan.options.floatEpsilon integer _ ofType _
        relative _ _ (firstBytes candidate) length old
      rw [same]
      dsimp only
      rw [← compared]
      split
      · rename_i kept
        simp [kept]
      · rename_i dropped
        simp [dropped]

/-- What is kept keeps its place among the candidates, and is recorded as it is now. -/
theorem narrow_eq_filter (integer : isIntegerType type = true) {scan : Rescan Epsilon}
    (ofType : OfType type scan.value) (going : scan.cancel.done = false)
    {results : List ScanResult} (room : results.length ≤ scan.options.maxResults)
    (old : ∀ candidate ∈ results, (oldBytes candidate).length = valueTypeSize type) :
    rescan floats results scan =
      (results.filter (keeps floats scan)).map
        (recordNow scan.view (valueTypeSize type)) := by
  have each : ∀ candidate ∈ results,
      survivor floats scan.view scan.options scan.mode scan.value candidate =
        if keeps floats scan candidate = true then
          some (recordNow scan.view (valueTypeSize type) candidate) else none := by
    intro candidate inside
    unfold keeps
    cases kept : survivor floats scan.view scan.options scan.mode scan.value candidate with
    | none => simp
    | some entry =>
        obtain ⟨bytes, held, made⟩ := survivor_some kept
        have now := ((@holds_ofType type integer scan.view _ ofType _ (old candidate inside)).1
          bytes held).1
        rw [made, now, Option.isSome_some, if_pos rfl]
        rfl
  have loop := @narrowLoop_eq _ floats scan.view scan.options scan.mode scan.value scan.cancel going
    results 0 [] (by rw [List.length_nil]; omega)
  rw [List.nil_append, List.filterMap_congr each, filterMap_if] at loop
  simp only [rescan, narrow, scanNext, going, Bool.false_eq_true, ↓reduceIte]
  exact loop

/-- Among candidates of an integer type, wherever the memory stands by then, each that can still
be read has increased, decreased or stayed, and only one of these; it has changed when it has
done one of the first two. The scans keep these sets where their limit is not below the number of
candidates. -/
theorem narrow_partition (integer : isIntegerType type = true) (firstType : OfType type first.value)
    (scanTypes : ∀ scan ∈ scans, OfType type scan.value) (after : TargetView)
    {options : ScanMode → ScanOptions Epsilon} {value : ScanMode → ScanValue}
    (ofTypes : ∀ mode, OfType type (value mode)) {cancel : CancelFlag}
    (going : cancel.done = false) :
    let results := Runs.run (rescan floats) (first.hits floats) scans
    let scan := fun mode => Rescan.mk ⟨after, mode, value mode, cancel⟩ (options mode)
    let kept := fun mode => keeps floats (scan mode)
    (∀ mode ∈ [ScanMode.increased, .decreased, .unchanged, .changed],
      results.length ≤ (options mode).maxResults →
        rescan floats results (scan mode) =
          (results.filter (kept mode)).map (recordNow after (valueTypeSize type))) ∧
    ∀ candidate ∈ results,
      (StillReadable after candidate.address (valueTypeSize type) ↔
        kept .increased candidate = true ∨ kept .decreased candidate = true ∨
          kept .unchanged candidate = true) ∧
      ¬ (kept .increased candidate = true ∧ kept .decreased candidate = true) ∧
      ¬ (kept .increased candidate = true ∧ kept .unchanged candidate = true) ∧
      ¬ (kept .decreased candidate = true ∧ kept .unchanged candidate = true) ∧
      (kept .changed candidate = true ↔
        kept .increased candidate = true ∨ kept .decreased candidate = true) := by
  intro results scan kept
  have old : ∀ candidate ∈ results, (oldBytes candidate).length = valueTypeSize type := by
    intro candidate inside
    obtain ⟨length, same⟩ := current_ofType firstType scanTypes inside
    rw [same]
    exact length
  constructor
  · intro mode relative room
    exact narrow_eq_filter integer (ofTypes mode) going room old
  · intro candidate inside
    have keptIff (mode : ScanMode)
        (relative : mode ∈ [ScanMode.increased, .decreased, .unchanged, .changed]) :=
      @keeps_iff _ floats type integer (scan mode) (ofTypes mode) relative _ (old candidate inside)
    have up := keptIff .increased (by decide)
    have down := keptIff .decreased (by decide)
    have stays := keptIff .unchanged (by decide)
    have changed := keptIff .changed (by decide)
    simp only [kept, up, down, stays, changed, scan]
    by_cases still : StillReadable after candidate.address (valueTypeSize type)
    · obtain ⟨some_, apart⟩ := passes_partition (old candidate inside) (readable_length still.2)
      simp only [still, true_and]
      exact ⟨iff_of_true trivial some_, apart⟩
    · simp [still]

end Partition

/-- A first scan that finds the signed byte 1 three times. -/
def onesFirst : First Unit where
  view := textView [1, 1, 1]
  options := { floatEpsilon := () }
  mode := .exact
  value := { type := .int8, bytes := [1] }
  cancel := .never

def onesNext (maxResults : Nat) (after : List UInt8) (mode : ScanMode) : Rescan Unit where
  view := textView after
  options := { maxResults, floatEpsilon := () }
  mode := mode
  value := { type := .int8, bytes := [] }
  cancel := .never

/-- One stays, one goes up to 2 and one down to -1. -/
theorem onesFirst_partition :
    let kept := fun mode => (rescan noFloatSteps (onesFirst.hits noFloatSteps)
      (onesNext 3 [1, 2, 255] mode)).map (·.address)
    kept .increased = [0x10001] ∧ kept .decreased = [0x10002] ∧ kept .unchanged = [0x10000] ∧
      kept .changed = [0x10001, 0x10002] := by
  have partition := (@narrow_partition _ noFloatSteps .int8 onesFirst [] rfl ⟨rfl, Or.inr rfl⟩
    (fun _ inside => nomatch inside) (textView [1, 2, 255])
    (fun _ => { maxResults := 3, floatEpsilon := () }) (fun _ => { type := .int8, bytes := [] })
    (fun _ => ⟨rfl, Or.inl rfl⟩) .never rfl).1
  have kept (mode : ScanMode)
      (relative : mode ∈ [ScanMode.increased, .decreased, .unchanged, .changed]) :
      rescan noFloatSteps (onesFirst.hits noFloatSteps) (onesNext 3 [1, 2, 255] mode) =
        ((onesFirst.hits noFloatSteps).filter
          (keeps noFloatSteps (onesNext 3 [1, 2, 255] mode))).map
            (recordNow (textView [1, 2, 255]) 1) := partition mode relative (by decide)
  simp only [kept .increased (by decide), kept .decreased (by decide),
    kept .unchanged (by decide), kept .changed (by decide)]
  decide

/-- Nothing changes, and the limit is lowered to one: two of the three are in none of the sets,
though all three can be read. -/
theorem onesFirst_cut :
    let kept := fun mode => (rescan noFloatSteps (onesFirst.hits noFloatSteps)
      (onesNext 1 [1, 1, 1] mode)).map (·.address)
    (onesFirst.hits noFloatSteps).map (·.address) = [0x10000, 0x10001, 0x10002] ∧
      (∀ candidate ∈ onesFirst.hits noFloatSteps,
        StillReadable (textView [1, 1, 1]) candidate.address 1) ∧
      kept .increased = [] ∧ kept .decreased = [] ∧ kept .unchanged = [0x10000] := by
  unfold StillReadable
  decide

/-- What a step from `p` by `d` is in the integers. -/
def stepped (mode : ScanMode) (p d : Int) : Int := if mode = .increasedBy then p + d else p - d

/-- `static_cast<T>(p + d)` or `static_cast<T>(p - d)`: nothing where the arithmetic, in the type
that the operands are promoted to, is undefined. -/
def expected (type : ValueType) (mode : ScanMode) (p d : Int) : Option Int :=
  ((intType type).promoted.result (stepped mode p d)).map (intType type).cast

/-- An operand of `relativeCompare`. -/
def operand (type : ValueType) (bytes : List UInt8) : Int :=
  integerValue type (unpack (valueTypeSize type) bytes)

/-- Whether a step mode keeps a candidate, where its arithmetic is defined. -/
def steppedTo (type : ValueType) (mode : ScanMode) (current previous delta : List UInt8) :
    Option Bool :=
  (expected type mode (operand type previous) (operand type delta)).map
    (operand type current == ·)

theorem operand_modEq (type : ValueType) (bytes : List UInt8) :
    operand type bytes ≡ littleEndian (unpack (valueTypeSize type) bytes)
      [ZMOD 2 ^ (intType type).bits] :=
  integerValue_modEq (unpack_length _ _)

/-- Two's complement of the type's width, whatever its sign. -/
def complement (type : ValueType) : IntType := ⟨8 * valueTypeSize type, true⟩

theorem complement_cast (type : ValueType) (value : Int) :
    (complement type).cast value = value.bmod (2 ^ (8 * valueTypeSize type)) := by
  simp only [IntType.cast, complement, ↓reduceIte]

theorem storedBits_toInt (type : ValueType) (bytes : List UInt8) :
    (storedBits type bytes).toInt = (complement type).cast (littleEndian bytes) := by
  rw [storedBits, BitVec.toInt_ofNat', complement_cast]

/-- What the wrapped comparison of a step asks. -/
theorem relativeCompare_stepped (integer : isIntegerType type = true) {mode : ScanMode}
    (steps : mode = .increasedBy ∨ mode = .decreasedBy) :
    relativeCompare floats mode type current previous delta epsilon = true ↔
      operand type current ≡ stepped mode (operand type previous) (operand type delta)
        [ZMOD 2 ^ (intType type).bits] := by
  have c := operand_modEq type current
  have p := operand_modEq type previous
  have d := operand_modEq type delta
  have wrapped (bytes : List UInt8) :
      (complement type).cast (littleEndian bytes) ≡ littleEndian bytes
        [ZMOD 2 ^ (intType type).bits] := IntType.cast_modEq _
  have residues (value other : Int) : (complement type).cast value = (complement type).cast other ↔
      value ≡ other [ZMOD 2 ^ (intType type).bits] := IntType.cast_eq_cast_iff
  rw [relativeCompare_integer integer]
  rcases steps with rfl | rfl
  · simp only [beq_iff_eq, stepped, ↓reduceIte]
    rw [← BitVec.toInt_inj, BitVec.toInt_add, storedBits_toInt, storedBits_toInt, storedBits_toInt,
      ← complement_cast, residues]
    constructor
    · intro same
      exact c.trans (same.trans (((wrapped _).add (wrapped _)).trans (p.add d).symm))
    · intro same
      exact c.symm.trans (same.trans ((p.add d).trans ((wrapped _).add (wrapped _)).symm))
  · simp only [beq_iff_eq, stepped, reduceCtorEq, ↓reduceIte]
    rw [← BitVec.toInt_inj, BitVec.toInt_sub, storedBits_toInt, storedBits_toInt, storedBits_toInt,
      ← complement_cast, residues]
    constructor
    · intro same
      exact c.trans (same.trans (((wrapped _).sub (wrapped _)).trans (p.sub d).symm))
    · intro same
      exact c.symm.trans (same.trans ((p.sub d).trans ((wrapped _).sub (wrapped _)).symm))

/-- Where the arithmetic of a step is defined, the step keeps a candidate as the wrapped comparison
does. -/
theorem steppedTo_eq (integer : isIntegerType type = true) {mode : ScanMode}
    (steps : mode = .increasedBy ∨ mode = .decreasedBy) {kept : Bool}
    (defined : steppedTo type mode current previous delta = some kept) :
    relativeCompare floats mode type current previous delta epsilon = kept := by
  obtain ⟨value, computed, rfl⟩ := Option.map_eq_some_iff.mp defined
  obtain ⟨result, promoted, rfl⟩ := Option.map_eq_some_iff.mp computed
  rw [Bool.eq_iff_iff, relativeCompare_stepped integer steps, beq_iff_eq]
  have holds : (intType type).Holds (operand type current) :=
    integerValue_holds integer (unpack_length _ _)
  rw [IntType.eq_cast_iff (intType_wide integer) holds]
  have residue := IntType.result_promoted_modEq promoted
  constructor
  · exact fun same => same.trans residue.symm
  · exact fun same => same.trans residue

/-- The step stays in the range of a type that is not promoted and has a sign. -/
def Representable (type : ValueType) (mode : ScanMode) (p d : Int) : Prop :=
  isSignedType type = true → 4 ≤ valueTypeSize type → (intType type).Holds (stepped mode p d)

theorem result_defined_iff (integer : isIntegerType type = true) (mode : ScanMode) {p d : Int}
    (pHolds : (intType type).Holds p) (dHolds : (intType type).Holds d) :
    (intType type).promoted.result (stepped mode p d) ≠ none ↔ Representable type mode p d := by
  rw [IntType.result_promoted_ne_none]
  -- Two operands of 8 or 16 bits never leave `int`.
  have narrow (narrow : valueTypeSize type < 4) :
      (IntType.mk 32 true).Holds (stepped mode p d) := by
    unfold stepped
    cases type with
    | int8 | uInt8 | int16 | uInt16 =>
        simp only [IntType.Holds, intType, isSignedType, valueTypeSize, Bool.false_eq_true,
          ↓reduceIte] at pHolds dHolds ⊢
        split <;> omega
    | int32 | uInt32 | int64 | uInt64 | float | double => simp [valueTypeSize] at narrow
    | bytes | stringAscii | stringUtf16 => contradiction
  unfold Representable
  by_cases small : valueTypeSize type < 4
  · have promoted : (intType type).promoted = ⟨32, true⟩ := by
      rw [IntType.promoted, if_pos]
      show 8 * valueTypeSize type < 32
      omega
    rw [promoted]
    exact iff_of_true (fun _ => narrow small) fun _ wide => absurd small (by omega)
  · have promoted : (intType type).promoted = intType type := by
      rw [IntType.promoted, if_neg]
      show ¬ 8 * valueTypeSize type < 32
      omega
    rw [promoted]
    constructor
    · exact fun holds signed _ => holds signed
    · exact fun holds signed => holds signed (by omega)

/-- A step keeps exactly the candidates that are congruent to it modulo the width of the type,
by arithmetic that is defined, just when it stays representable where it has to. -/
theorem steppedTo_iff {value : ScanValue} (integer : isIntegerType value.type = true)
    {mode : ScanMode} (steps : mode = .increasedBy ∨ mode = .decreasedBy)
    (current previous first : List UInt8) (epsilon : Epsilon) :
    (∃ kept, steppedTo value.type mode current previous value.bytes = some kept ∧
      compareValues floats mode value current previous first epsilon = kept ∧
      (kept = true ↔ operand value.type current ≡
        stepped mode (operand value.type previous) (operand value.type value.bytes)
          [ZMOD 2 ^ (8 * valueTypeSize value.type)])) ↔
    Representable value.type mode (operand value.type previous)
      (operand value.type value.bytes) := by
  have holds (bytes : List UInt8) : (intType value.type).Holds (operand value.type bytes) :=
    integerValue_holds integer (unpack_length _ _)
  have compared : compareValues floats mode value current previous first epsilon =
      relativeCompare floats mode value.type current previous value.bytes epsilon := by
    rcases steps with rfl | rfl <;> rfl
  rw [← result_defined_iff integer mode (holds previous) (holds value.bytes), compared]
  constructor
  · rintro ⟨kept, defined, _⟩ undefined
    simp [steppedTo, expected, undefined] at defined
  · intro defined
    obtain ⟨result, computed⟩ := Option.ne_none_iff_exists'.mp defined
    have some_ : steppedTo value.type mode current previous value.bytes =
        some (operand value.type current == (intType value.type).cast result) := by
      simp [steppedTo, expected, computed]
    have same := @steppedTo_eq _ floats _ _ _ _ epsilon integer _ steps _ some_
    refine ⟨_, some_, same, ?_⟩
    rw [← same]
    exact relativeCompare_stepped integer steps

/-- A health in one byte that goes from 3 down by 6 to 253. -/
theorem steppedTo_u8 :
    ∃ kept, steppedTo .uInt8 .decreasedBy [253] [3] [6] = some kept ∧
      compareValues noFloatSteps .decreasedBy { type := .uInt8, bytes := [6] } [253] [3] [] () =
        kept ∧
      (kept = true ↔ operand .uInt8 [253] ≡
        stepped .decreasedBy (operand .uInt8 [3]) (operand .uInt8 [6]) [ZMOD 2 ^ 8]) :=
  (@steppedTo_iff _ noFloatSteps { type := .uInt8, bytes := [6] } rfl .decreasedBy (Or.inr rfl)
    [253] [3] [] ()).mpr (by unfold Representable; decide)

/-- The largest 32-bit integer, increased by one. -/
theorem steppedTo_overflow :
    steppedTo .int32 .increasedBy [0, 0, 0, 0x80] [0xFF, 0xFF, 0xFF, 0x7F] [1, 0, 0, 0] = none ∧
      operand .int32 [0, 0, 0, 0x80] ≡ stepped .increasedBy (operand .int32 [0xFF, 0xFF, 0xFF, 0x7F])
        (operand .int32 [1, 0, 0, 0]) [ZMOD 2 ^ 32] := by
  decide

end PointerLab.MemoryScanner
