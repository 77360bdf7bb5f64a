import PointerLab.PointerScanner
import PointerLab.ProjectStoreText
import PointerLab.SymbolTableDescribe

set_option autoImplicit false

/- `engine_export/TrainerExport.cpp`: what is written into a trainer for a pointer chain, how
its compiler reads that, and the `resolve` it runs. The file is read in the character set it
is written in, and a constant too large for its type loses its high bits. -/
namespace PointerLab.TrainerExport

open Domain Digits ProjectStore

section Written

def escapeForCpp (text : Text) : Text :=
  text.flatMap fun c =>
    if c == '\\' || c == '"' then ['\\', c]
    else if c == '\n' || c == '\r' || c == '\t' then [' ']
    else [c]

/-- What `generate` writes for a chain: the parts of an element of `g_cheats` and of the
array of its offsets. -/
structure Initializer where
  moduleName : Text
  base : Text
  offsets : List Text
  offsetCount : Text
  deriving DecidableEq

def initializer (api : Conversion) (chain : PointerChain) : Initializer where
  moduleName :=
    if chain.moduleRooted then
      'L' :: '"' :: (escapeForCpp (narrow api chain.moduleName) ++ ['"'])
    else "nullptr".toList
  base := toHex chain.moduleOffset
  offsets := chain.offsets.map fun offset => toHex (toUnsigned offset)
  offsetCount := decimal chain.offsets.length

end Written

section Compiled

/-- One past the largest `uintptr_t` of a program of a bitness. -/
def limit : Bitness → Nat
  | .x86 => 0x100000000
  | .x64 => addressSpace

/-- A constant as a `ptrdiff_t` of a program of a bitness. -/
def asPtrdiff (bitness : Bitness) (value : Nat) : Int :=
  let low := value % limit bitness
  if low < limit bitness / 2 then low else (low : Int) - limit bitness

/-- The characters of a string literal up to its quote, and what comes after it. -/
def literalBody : Text → Option (Text × Text)
  | [] => none
  | '"' :: rest => some ([], rest)
  | '\\' :: '\\' :: rest => (literalBody rest).map fun (body, after) => ('\\' :: body, after)
  | '\\' :: '"' :: rest => (literalBody rest).map fun (body, after) => ('"' :: body, after)
  | '\\' :: _ => none
  | '\n' :: _ => none
  | '\r' :: _ => none
  | c :: rest => (literalBody rest).map fun (body, after) => (c :: body, after)

/-- A `const wchar_t*`: a wide literal or `nullptr`. -/
def wideLiteral (api : Conversion) : Text → Option (Option WideText)
  | 'L' :: '"' :: text =>
      match literalBody text with
      | some (body, []) => some (some (widen api body))
      | _ => none
  | text => if text == "nullptr".toList then some none else none

def hexLiteral : Text → Option Nat
  | '0' :: 'x' :: digits => if digits.all isHexDigit then some (number 16 digits) else none
  | _ => none

def decimalLiteral (digits : Text) : Option Nat :=
  if digits.all Char.isDigit then some (number 10 digits) else none

/-- The fields of a `Cheat` that `resolve` reads. -/
structure Cheat where
  moduleName : Option WideText
  base : Nat
  offsets : List Int
  offsetCount : Nat
  deriving DecidableEq

/-- What a compiler that takes a constant too wide for its type makes of an initializer: the
constant keeps its low bits. -/
def compile (api : Conversion) (bitness : Bitness) (written : Initializer) : Option Cheat :=
  match wideLiteral api written.moduleName, hexLiteral written.base,
      written.offsets.mapM hexLiteral, decimalLiteral written.offsetCount with
  | some moduleName, some base, some offsets, some offsetCount =>
      some
        { moduleName
          base := base % limit bitness
          offsets := offsets.map (asPtrdiff bitness)
          offsetCount }
  | _, _, _, _ => none

end Compiled

section Emitted

/-- `moduleBase`: the names are compared by `_wcsicmp`. -/
def moduleBase (view : TargetView) (name : WideText) : Nat :=
  match view.modules.find? fun module => PointerScanner.sameName module.name name with
  | some module => module.base % limit view.bitness
  | none => 0

/-- The loop of `resolve` over the offsets that are left. -/
def follow (view : TargetView) : Nat → List Int → Nat
  | address, [] => address
  | address, offset :: rest =>
      match view.readBytes address (pointerSize view.bitness) with
      | .error _ => 0
      | .ok bytes =>
          if bytes.length ≠ pointerSize view.bitness then 0
          else follow view ((littleEndian bytes + offset) % limit view.bitness).toNat rest

/-- `resolve`. -/
def resolve (view : TargetView) (cheat : Cheat) : Nat :=
  let offsets := cheat.offsets.take cheat.offsetCount
  match cheat.moduleName with
  | none => follow view cheat.base offsets
  | some name =>
      let base := moduleBase view name
      if base = 0 then 0 else follow view ((cheat.base + base) % limit view.bitness) offsets

end Emitted

/-- A character that `escapeForCpp` does not keep. -/
def blank (c : Char) : Char := if c == '\n' || c == '\r' || c == '\t' then ' ' else c

/-- A literal that was escaped is read to its end, its line breaks and tabs blank. -/
theorem literalBody_escapeForCpp (text after : Text) :
    literalBody (escapeForCpp text ++ '"' :: after) = some (text.map blank, after) := by
  induction text with
  | nil => rfl
  | cons c rest ih =>
      have step : escapeForCpp (c :: rest) = (if c == '\\' || c == '"' then ['\\', c]
          else if c == '\n' || c == '\r' || c == '\t' then [' '] else [c]) ++
            escapeForCpp rest := rfl
      rw [step, List.append_assoc]
      by_cases slash : c = '\\'
      · subst slash
        simp [literalBody, ih, blank]
      by_cases quote : c = '"'
      · subst quote
        simp [literalBody, ih, blank]
      by_cases lineFeed : c = '\n'
      · subst lineFeed
        simp [literalBody, ih, blank]
      by_cases return_ : c = '\r'
      · subst return_
        simp [literalBody, ih, blank]
      by_cases tab : c = '\t'
      · subst tab
        simp [literalBody, ih, blank]
      simp [literalBody, ih, blank, slash, quote, lineFeed, return_, tab]

theorem hexLiteral_toHex (value : Nat) : hexLiteral (toHex value) = some value := by
  have digits : ((Nat.toDigits 16 value).map Char.toUpper).all isHexDigit = true := by
    rw [List.all_eq_true]
    intro c inside
    obtain ⟨digit, small, rfl⟩ := SymbolTable.toUpper_digit inside
    exact (upperDigit_facts digit small).2
  simp only [toHex, hexLiteral]
  rw [if_pos digits, SymbolTable.number_toUpper]

theorem decimalLiteral_decimal (value : Nat) : decimalLiteral (decimal value) = some value := by
  have digits : (decimal value).all Char.isDigit = true :=
    List.all_eq_true.mpr (toDigits_decimal value)
  rw [decimalLiteral, if_pos digits, decimal, number_toDigits (by decide) (by decide)]

theorem mapM_hexLiteral (offsets : List Int) :
    (offsets.map fun offset => toHex (toUnsigned offset)).mapM hexLiteral =
      some (offsets.map toUnsigned) := by
  induction offsets with
  | nil => rfl
  | cons offset rest ih =>
      simp only [List.map_cons, List.mapM_cons, hexLiteral_toHex, ih]
      rfl

/-- The module name the trainer looks for. -/
def writtenName (api : Conversion) (chain : PointerChain) : Option WideText :=
  if chain.moduleRooted then some (widen api ((narrow api chain.moduleName).map blank)) else none

/-- The trainer is compiled with the numbers of the chain. -/
theorem compile_initializer (api : Conversion) (bitness : Bitness) (chain : PointerChain) :
    compile api bitness (initializer api chain) = some
      { moduleName := writtenName api chain
        base := chain.moduleOffset % limit bitness
        offsets := chain.offsets.map fun offset => asPtrdiff bitness (toUnsigned offset)
        offsetCount := chain.offsets.length } := by
  have name : wideLiteral api (initializer api chain).moduleName =
      some (writtenName api chain) := by
    unfold initializer writtenName
    simp only
    split
    · have body := literalBody_escapeForCpp (narrow api chain.moduleName) []
      simp only [wideLiteral, body]
    · rfl
  unfold compile
  rw [name]
  simp only [initializer, hexLiteral_toHex, mapM_hexLiteral, decimalLiteral_decimal, List.map_map]
  rfl

end PointerLab.TrainerExport
