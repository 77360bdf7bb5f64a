import PointerLab.NextScan

set_option autoImplicit false

/- The three ways to a next scan: `LuaConsole::l_scan_next`, the MCP tool `scan_next` and the
Scanner panel. What a mode with a value scans for is parsed elsewhere, so each front end
takes what its parser made of it. -/
namespace PointerLab.MemoryScanner

open Domain Sweep TargetView

/-- `parseScanMode` of the Lua console. -/
def parseScanMode (text : Text) : Option ScanMode :=
  if text = "exact".toList then some .exact
  else if text = "unknown".toList then some .unknownInitial
  else if text = "changed".toList then some .changed
  else if text = "unchanged".toList then some .unchanged
  else if text = "increased".toList then some .increased
  else if text = "decreased".toList then some .decreased
  else none

def modeUsesValue : ScanMode → Bool
  | .exact | .valueBetween | .biggerThan | .smallerThan | .increasedBy | .decreasedBy => true
  | .unknownInitial | .changed | .unchanged | .increased | .decreased | .sameAsFirst => false

/-- What a front end answers: an error, a refusal, or the results of the scan it starts. -/
inductive Answer
  | raised (message : String)
  | refused (message : String)
  | narrowed (results : List ScanResult)

/-- The candidates there are afterwards. -/
def Answer.left (results : List ScanResult) : Answer → List ScanResult
  | .raised _ => results
  | .refused _ => results
  | .narrowed after => after

/-- The needle of a mode that compares against an earlier scan, as the MCP tools and the
Scanner panel build it: only a width. -/
def placeholder (type : ValueType) : ScanValue :=
  { type, bytes := List.replicate (valueTypeSize type) 0 }

/-- The needle that Lua builds, from the bytes that `packTyped` made of its argument. -/
def luaNeedle (mode : ScanMode) (type : ValueType) (packed : List UInt8) : ScanValue :=
  if mode = .exact then { type, bytes := packed }
  else { type, bytes := List.replicate (max 1 (valueTypeSize type)) 0 }

/-- `buildScanValue`, from the needle that its arguments parse to. -/
def buildScanValue (mode : ScanMode) (type : ValueType) (parsed : Result ScanValue) :
    Result ScanValue :=
  if !modeUsesValue mode then .ok (placeholder type) else parsed

/-- The refusal of a mode that orders what has no order. -/
def unsupported (mode : ScanMode) (type : ValueType) : String :=
  scanModeName mode ++ " cannot be used with " ++ String.ofList (valueTypeName type) ++
    ": ordering has no meaning for it."

section FrontEnds

variable {Epsilon : Type} (floats : FloatSteps Epsilon) (view : TargetView)
  (options : ScanOptions Epsilon) (type : ValueType) (cancel : CancelFlag)
  (results : List ScanResult)

/-- `LuaConsole::l_scan_next`. -/
def lScanNext (modeText : Text) (packed : List UInt8) : Answer :=
  match parseScanMode modeText with
  | none =>
      .raised ("Unknown scan mode '" ++ String.ofList modeText ++
        "'. Use exact, unknown, changed, unchanged, increased or decreased.")
  | some mode =>
      if results.isEmpty then
        .refused "There are no results to narrow. Run scan_exact or scan_unknown first."
      else
        .narrowed
          (scanNext floats view options mode (luaNeedle mode type packed) cancel results).1

/-- The MCP tool `scan_next`, once its mode is parsed. -/
def mcpScanNext (mode : ScanMode) (parsed : Result ScanValue) : Answer :=
  if !view.attached then
    .refused "No target process is attached. Call attach with a pid first."
  else if results.isEmpty then
    .refused "There are no results to narrow. Run scan_first first."
  else if !modeSupportsType mode type then .refused (unsupported mode type)
  else
    match buildScanValue mode type parsed with
    | .error failure => .refused failure.message
    | .ok value => .narrowed (scanNext floats view options mode value cancel results).1

/-- The panel's button, with the value its boxes parse to. -/
def panelScanNext (mode : ScanMode) (parsed : Option ScanValue) (complaint : String) : Answer :=
  let scanValue := if modeUsesValue mode then parsed else some (placeholder type)
  if results.isEmpty then .refused "Run a first scan before filtering with Next scan."
  else if !modeSupportsType mode type then .refused (unsupported mode type)
  else
    match scanValue with
    | none => .refused complaint
    | some value => .narrowed (scanNext floats view options mode value cancel results).1

end FrontEnds

variable {Epsilon : Type} {floats : FloatSteps Epsilon} {view : TargetView}
  {options : ScanOptions Epsilon} {mode : ScanMode} {type : ValueType}

theorem parseScanMode_inexact {text : Text} (parsed : parseScanMode text = some mode)
    (inexact : mode ≠ .exact) :
    mode = .unknownInitial ∨ mode = .changed ∨ mode = .unchanged ∨ mode = .increased ∨
      mode = .decreased := by
  unfold parseScanMode at parsed
  split_ifs at parsed
  all_goals
    obtain rfl := Option.some.inj parsed
    simp_all

/-- A type with a width of its own gives Lua the same needle. -/
theorem luaNeedle_eq (inexact : mode ≠ .exact) (fixed : valueTypeSize type ≠ 0)
    (packed : List UInt8) : luaNeedle mode type packed = placeholder type := by
  have width : max 1 (valueTypeSize type) = valueTypeSize type := by omega
  rw [luaNeedle, if_neg inexact, width]
  rfl

/-- Nothing without an order has increased or decreased. -/
theorem relative_fails {value : ScanValue} (moved : mode = .increased ∨ mode = .decreased)
    (variable_ : valueTypeSize value.type = 0) (current previous first : List UInt8)
    (epsilon : Epsilon) :
    compareValues floats mode value current previous first epsilon = false := by
  have relative : compareValues floats mode value current previous first epsilon =
      relativeCompare floats mode value.type current previous value.bytes epsilon := by
    rcases moved with rfl | rfl <;> rfl
  rw [relative, relativeCompare]
  simp only [variable_, beq_self_eq_true, ↓reduceIte]

theorem narrowLoop_relative {value : ScanValue} {cancel : CancelFlag}
    (moved : mode = .increased ∨ mode = .decreased) (variable_ : valueTypeSize value.type = 0)
    (candidates : List ScanResult) (i : Nat) (next : List ScanResult) :
    narrowLoop floats view options mode value cancel i candidates next = next := by
  apply narrowLoop_none
  intro candidate _
  exact survivor_none fun _ _ _ _ _ => relative_fails moved variable_ _ _ _ _

/-- Two bytes, and a candidate that holds them. -/
def pairView : TargetView where
  regions := [{ base := 0x10000, size := 2, readable := true }]
  memory := fun address => if 0x10000 ≤ address then [1, 2][address - 0x10000]? else none

def pairHit : ScanResult :=
  { address := 0x10000, previous := [1, 2], current := [1, 2], first := [1, 2] }

theorem unsized_cases (variable_ : valueTypeSize type = 0) :
    type = .bytes ∨ type = .stringAscii ∨ type = .stringUtf16 := by
  cases type <;> simp_all [valueTypeSize]

/-- The bytes that Lua reads of the pair are not the pair. -/
theorem pair_differs (variable_ : valueTypeSize type = 0) (packed : List UInt8)
    (inexact : mode = .unknownInitial ∨ mode = .changed ∨ mode = .unchanged) :
    (scanNext floats pairView { floatEpsilon := floats.zero } mode (luaNeedle mode type packed)
        .never [pairHit]).1 ≠
      (scanNext floats pairView { floatEpsilon := floats.zero } mode (placeholder type)
        .never [pairHit]).1 := by
  intro agree
  rcases unsized_cases variable_ with rfl | rfl | rfl
  all_goals
    rcases inexact with rfl | rfl | rfl
    · change [(⟨0x10000, [1, 2], [1], [1, 2]⟩ : ScanResult)] = [pairHit] at agree
      exact absurd agree (by decide)
    · change [(⟨0x10000, [1, 2], [1], [1, 2]⟩ : ScanResult)] = [] at agree
      exact absurd agree (by decide)
    · change [] = [pairHit] at agree
      exact absurd agree (by decide)

/-- Lua's scan agrees with one for the placeholder just for the types that have a width, and
for the orderings of the others, which leave nothing. -/
theorem scans_agree_iff (inexact : mode = .unknownInitial ∨ mode = .changed ∨ mode = .unchanged ∨
      mode = .increased ∨ mode = .decreased) (packed : List UInt8) :
    (∀ view (options : ScanOptions Epsilon) cancel results,
      (scanNext floats view options mode (luaNeedle mode type packed) cancel results).1 =
        (scanNext floats view options mode (placeholder type) cancel results).1) ↔
      valueTypeSize type ≠ 0 ∨ mode = .increased ∨ mode = .decreased := by
  have other : mode ≠ .exact := by
    rintro rfl
    simp at inexact
  constructor
  · intro agree
    by_cases fixed : valueTypeSize type = 0
    · have unordered := agree pairView { floatEpsilon := floats.zero } .never [pairHit]
      rcases inexact with mode | mode | mode | moved
      · exact absurd unordered (pair_differs fixed packed (Or.inl mode))
      · exact absurd unordered (pair_differs fixed packed (Or.inr (Or.inl mode)))
      · exact absurd unordered (pair_differs fixed packed (Or.inr (Or.inr mode)))
      · exact Or.inr moved
    · exact Or.inl fixed
  · intro holds view options cancel results
    by_cases fixed : valueTypeSize type = 0
    · have moved : mode = .increased ∨ mode = .decreased :=
        holds.resolve_left fun different => different fixed
      have luaType : valueTypeSize (luaNeedle mode type packed).type = 0 := by
        rw [luaNeedle, if_neg other]
        exact fixed
      have placeholderType : valueTypeSize (placeholder type).type = 0 := fixed
      simp only [scanNext, narrowLoop_relative moved luaType,
        narrowLoop_relative moved placeholderType]
    · rw [luaNeedle_eq other fixed]

/-- A mode without a value passes its checks with the placeholder, or is refused. -/
theorem frontEnds_left {cancel : CancelFlag} {results : List ScanResult} {parsed : Result ScanValue}
    {box : Option ScanValue} {complaint : String} (valueless : modeUsesValue mode = false)
    (attached : view.attached = true) (some_ : results ≠ []) :
    (mcpScanNext floats view options type cancel results mode parsed).left results =
        (if modeSupportsType mode type = true then
          (scanNext floats view options mode (placeholder type) cancel results).1 else results) ∧
      (panelScanNext floats view options type cancel results mode box complaint).left results =
        if modeSupportsType mode type = true then
          (scanNext floats view options mode (placeholder type) cancel results).1 else results := by
  have listed : results.isEmpty = false := List.isEmpty_eq_false_iff.mpr some_
  cases supports : modeSupportsType mode type with
  | false =>
      simp only [mcpScanNext, panelScanNext, attached, listed, supports, Answer.left, Bool.not_true,
        Bool.not_false, Bool.false_eq_true, ↓reduceIte, and_self]
  | true =>
      simp only [mcpScanNext, panelScanNext, buildScanValue, attached, listed, supports, valueless,
        Answer.left, Bool.not_true, Bool.not_false, Bool.false_eq_true, ↓reduceIte, and_self]

/-- Nor does Lua leave what a tool leaves that refuses to order the pair. -/
theorem pair_refused (variable_ : valueTypeSize type = 0) (packed : List UInt8)
    (inexact : mode = .unknownInitial ∨ mode = .changed ∨ mode = .unchanged ∨
      mode = .increased ∨ mode = .decreased) :
    (scanNext floats pairView { floatEpsilon := floats.zero } mode (luaNeedle mode type packed)
        .never [pairHit]).1 ≠
      if modeSupportsType mode type = true then
        (scanNext floats pairView { floatEpsilon := floats.zero } mode (placeholder type)
          .never [pairHit]).1 else [pairHit] := by
  have unordered : modeSupportsType mode type = true ↔ mode = .changed ∨ mode = .unchanged := by
    rcases unsized_cases variable_ with rfl | rfl | rfl <;>
      rcases inexact with rfl | rfl | rfl | rfl | rfl <;> decide
  by_cases compares : mode = .changed ∨ mode = .unchanged
  · rw [if_pos (unordered.mpr compares)]
    exact pair_differs variable_ packed (Or.inr compares)
  · rw [if_neg fun supports => compares (unordered.mp supports)]
    rcases inexact with rfl | changed | unchanged | moved
    · intro agree
      rcases unsized_cases variable_ with rfl | rfl | rfl
      all_goals
        change [(⟨0x10000, [1, 2], [1], [1, 2]⟩ : ScanResult)] = [pairHit] at agree
        exact absurd agree (by decide)
    · exact absurd (Or.inl changed) compares
    · exact absurd (Or.inr unchanged) compares
    · have luaType : valueTypeSize (luaNeedle mode type packed).type = 0 := by
        have other : mode ≠ .exact := by
          rintro rfl
          simp at moved
        rw [luaNeedle, if_neg other]
        exact variable_
      simp only [scanNext, narrowLoop_relative moved luaType, CancelFlag.never,
        Bool.false_eq_true, ↓reduceIte]
      exact (List.cons_ne_nil _ _).symm

/-- In an attached target Lua's `scan_next` leaves what the MCP tool and the panel leave, whatever
the candidates, just for the types that have a width. Where the others only order values the
scans themselves agree, but only Lua runs them. -/
theorem lScanNext_agrees_iff {modeText : Text} (parsed : parseScanMode modeText = some mode)
    (inexact : mode ≠ .exact) (packed : List UInt8) (argument : Result ScanValue)
    (box : Option ScanValue) (complaint : String) :
    ((∀ view (options : ScanOptions Epsilon) cancel results, view.attached = true →
        (lScanNext floats view options type cancel results modeText packed).left results =
            (mcpScanNext floats view options type cancel results mode argument).left results ∧
          (lScanNext floats view options type cancel results modeText packed).left results =
            (panelScanNext floats view options type cancel results mode box complaint).left
              results) ↔
      valueTypeSize type ≠ 0) ∧
    ((∀ view (options : ScanOptions Epsilon) cancel results,
      (scanNext floats view options mode (luaNeedle mode type packed) cancel results).1 =
        (scanNext floats view options mode (placeholder type) cancel results).1) ↔
      valueTypeSize type ≠ 0 ∨ mode = .increased ∨ mode = .decreased) := by
  have modes := parseScanMode_inexact parsed inexact
  have valueless : modeUsesValue mode = false := by
    rcases modes with rfl | rfl | rfl | rfl | rfl <;> rfl
  have lua view (options : ScanOptions Epsilon) cancel results (some_ : results ≠ []) :
      (lScanNext floats view options type cancel results modeText packed).left results =
        (scanNext floats view options mode (luaNeedle mode type packed) cancel results).1 := by
    have listed : results.isEmpty = false := List.isEmpty_eq_false_iff.mpr some_
    simp only [lScanNext, parsed, listed, Answer.left, Bool.false_eq_true, ↓reduceIte]
  refine ⟨⟨fun agree fixed => ?_, fun fixed view options cancel results attached => ?_⟩,
    scans_agree_iff modes packed⟩
  · have pair := (agree pairView { floatEpsilon := floats.zero } .never [pairHit] rfl).1
    have tools := (@frontEnds_left _ floats pairView { floatEpsilon := floats.zero } mode type .never
      [pairHit] argument box complaint valueless rfl (List.cons_ne_nil _ _)).1
    rw [tools, lua _ _ _ _ (List.cons_ne_nil _ _)] at pair
    exact pair_refused fixed packed modes pair
  · by_cases none_ : results = []
    · subst none_
      simp only [lScanNext, mcpScanNext, panelScanNext, parsed, attached, List.isEmpty_nil,
        Answer.left, Bool.not_true, Bool.false_eq_true, ↓reduceIte, and_self]
    · have tools := @frontEnds_left _ floats view options mode type cancel results argument box
        complaint valueless attached none_
      have supports : modeSupportsType mode type = true := by
        cases type <;> simp_all [modeSupportsType, isStringType, valueTypeSize]
      rw [supports, if_pos rfl] at tools
      rw [tools.1, tools.2, lua _ _ _ _ none_, luaNeedle_eq inexact fixed]
      exact ⟨rfl, rfl⟩

/-- Lua reads one byte of a candidate of two: what has not changed is kept as changed. -/
theorem changedPair_kept :
    parseScanMode "changed".toList = some .changed ∧
      (lScanNext noFloatSteps pairView { floatEpsilon := () } .bytes .never [pairHit]
        "changed".toList []).left [pairHit] = [⟨0x10000, [1, 2], [1], [1, 2]⟩] ∧
      (mcpScanNext noFloatSteps pairView { floatEpsilon := () } .bytes .never [pairHit] .changed
        (fail "")).left [pairHit] = [] ∧
      (panelScanNext noFloatSteps pairView { floatEpsilon := () } .bytes .never [pairHit] .changed
        none "").left [pairHit] = [] := by
  decide

/-- For a type of two bytes both read both. -/
theorem changedShort_agrees :
    (lScanNext noFloatSteps pairView { floatEpsilon := () } .uInt16 .never [pairHit]
        "changed".toList []).left [pairHit] =
      (mcpScanNext noFloatSteps pairView { floatEpsilon := () } .uInt16 .never [pairHit] .changed
        (fail "")).left [pairHit] :=
  (((@lScanNext_agrees_iff _ noFloatSteps .changed .uInt16 "changed".toList rfl (by decide) []
    (fail "") none "").1.mpr (by decide)) pairView { floatEpsilon := () } .never [pairHit] rfl).1

end PointerLab.MemoryScanner
