import PointerLab.Digits
import PointerLab.Domain

set_option autoImplicit false

/- `domain/Domain.cpp`: value types, scan modes, and the texts that bytes, patterns and
addresses are read from. -/
namespace PointerLab.Domain

open Digits

inductive ValueType
  | int8
  | uInt8
  | int16
  | uInt16
  | int32
  | uInt32
  | int64
  | uInt64
  | float
  | double
  | bytes
  | stringAscii
  | stringUtf16
  deriving DecidableEq, Repr

inductive ScanMode
  | exact
  | unknownInitial
  | changed
  | unchanged
  | increased
  | decreased
  | valueBetween
  | biggerThan
  | smallerThan
  | increasedBy
  | decreasedBy
  | sameAsFirst
  deriving DecidableEq, Repr

/-- Zero for the types whose length comes from the value. -/
def valueTypeSize : ValueType → Nat
  | .int8 | .uInt8 => 1
  | .int16 | .uInt16 => 2
  | .int32 | .uInt32 | .float => 4
  | .int64 | .uInt64 | .double => 8
  | .bytes | .stringAscii | .stringUtf16 => 0

def isStringType (type : ValueType) : Bool :=
  type == .stringAscii || type == .stringUtf16

def valueTypeName : ValueType → Text
  | .int8 => "i8".toList
  | .uInt8 => "u8".toList
  | .int16 => "i16".toList
  | .uInt16 => "u16".toList
  | .int32 => "i32".toList
  | .uInt32 => "u32".toList
  | .int64 => "i64".toList
  | .uInt64 => "u64".toList
  | .float => "f32".toList
  | .double => "f64".toList
  | .bytes => "bytes".toList
  | .stringAscii => "str".toList
  | .stringUtf16 => "wstr".toList

def scanModeName : ScanMode → String
  | .exact => "Exact value"
  | .unknownInitial => "Unknown initial value"
  | .changed => "Changed value"
  | .unchanged => "Unchanged value"
  | .increased => "Increased value"
  | .decreased => "Decreased value"
  | .valueBetween => "Value between"
  | .biggerThan => "Bigger than"
  | .smallerThan => "Smaller than"
  | .increasedBy => "Increased by"
  | .decreasedBy => "Decreased by"
  | .sameAsFirst => "Same as first scan"

def valueTypes : List ValueType :=
  [.int8, .uInt8, .int16, .uInt16, .int32, .uInt32, .int64, .uInt64, .float, .double, .bytes,
    .stringAscii, .stringUtf16]

/-- `std::tolower` on every character, in the C locale. -/
def lower (text : Text) : Text := text.map Char.toLower

/-- `std::towlower` in the C locale. -/
def toLowerWide (unit : UInt16) : UInt16 :=
  if 0x41 ≤ unit && unit ≤ 0x5A then unit + 0x20 else unit

def parseValueType (text : Text) : Option ValueType :=
  valueTypes.find? fun type => lower text == valueTypeName type

/-- Every type is read back from its own name. -/
@[simp] theorem parseValueType_name (type : ValueType) :
    parseValueType (valueTypeName type) = some type := by
  cases type <;> decide

/-- `std::isspace` in the C locale. -/
def isSpace (c : Char) : Bool :=
  c == ' ' || c == '\t' || c == '\n' || c == '\x0b' || c == '\x0c' || c == '\r'

def byteOfDigits (high low : Char) : UInt8 :=
  UInt8.ofNat (digitValue high * 16 + digitValue low)

/-- The pairs of a text of hexadecimal digits, a last odd one left out. -/
def bytePairs : Text → List UInt8
  | high :: low :: rest => byteOfDigits high low :: bytePairs rest
  | _ => []

/-- `parseHexBytes`. Whatever is no digit is skipped, and an odd count gets a leading zero. -/
def parseHexBytes (text : Text) : List UInt8 :=
  let hex := text.filter isHexDigit
  bytePairs (if hex.length % 2 != 0 then '0' :: hex else hex)

/-- A byte pattern; a mask byte of zero is a wildcard. -/
structure HexPattern where
  bytes : List UInt8
  mask : List UInt8
  parallel : mask.length = bytes.length
  deriving DecidableEq

def HexPattern.cons (byte mask : UInt8) (pattern : HexPattern) : HexPattern where
  bytes := byte :: pattern.bytes
  mask := mask :: pattern.mask
  parallel := congrArg Nat.succ pattern.parallel

/-- The loop of `parseHexPattern` over a text of digits and question marks. -/
def compactPattern : Text → Option HexPattern
  | [] => some ⟨[], [], rfl⟩
  | '?' :: '?' :: rest => (compactPattern rest).map (.cons 0 0x00)
  | '?' :: rest => (compactPattern rest).map (.cons 0 0x00)
  | high :: low :: rest =>
      if isHexDigit low then (compactPattern rest).map (.cons (byteOfDigits high low) 0xFF)
      else none
  | [_] => none

def parseHexPattern (text : Text) : Option HexPattern :=
  let compact := text.filter fun c => !isSpace c
  if compact.any fun c => !(isHexDigit c || c == '?') then none
  else if compact.isEmpty then none
  else compactPattern compact

theorem compactPattern_nonempty {compact : Text} {pattern : HexPattern} (nonempty : compact ≠ [])
    (parsed : compactPattern compact = some pattern) : pattern.bytes ≠ [] := by
  have pushed {byte mask : UInt8} {rest : Option HexPattern}
      (built : rest.map (.cons byte mask) = some pattern) : pattern.bytes ≠ [] := by
    obtain ⟨_, _, rfl⟩ := Option.map_eq_some_iff.mp built
    exact List.cons_ne_nil _ _
  unfold compactPattern at parsed
  split at parsed
  · contradiction
  · exact pushed parsed
  · exact pushed parsed
  · split at parsed
    · exact pushed parsed
    · contradiction
  · contradiction

/-- What parses as a pattern has at least one byte. -/
theorem parseHexPattern_nonempty {text : Text} {pattern : HexPattern}
    (parsed : parseHexPattern text = some pattern) : pattern.bytes ≠ [] := by
  simp only [parseHexPattern] at parsed
  split at parsed
  · contradiction
  · split at parsed
    · contradiction
    · rename_i nonempty
      refine compactPattern_nonempty ?_ parsed
      simpa only [List.isEmpty_iff] using nonempty

/-- `parseAddress`. Addresses are hexadecimal, with or without a prefix. -/
def parseAddress (text : Text) : Option Nat :=
  let value := text.filter fun c => !isSpace c
  let digits := match value with
    | '0' :: 'x' :: rest => rest
    | '0' :: 'X' :: rest => rest
    | _ => value
  if digits.isEmpty || digits.any (fun c => !isHexDigit c) || 16 < digits.length then none
  else some (number 16 digits)

/-- What a scan looks for. -/
structure ScanValue where
  type : ValueType := .int32
  bytes : List UInt8
  mask : List UInt8 := []
  text : Text := []
  /-- The upper bound of `ValueBetween`, or a delta. -/
  bytes2 : List UInt8 := []
  text2 : Text := []
  caseInsensitive : Bool := false
  deriving DecidableEq, Repr

/-- One hit, with what was there on the last scan and on the first. -/
structure ScanResult where
  address : Nat
  previous : List UInt8
  current : List UInt8
  first : List UInt8
  deriving DecidableEq, Repr

/-- A path from a static base to a value. Without a module name the offset is an absolute
address. -/
structure PointerChain where
  moduleName : WideText := []
  moduleOffset : Nat := 0
  offsets : List Int := []
  moduleBase : Nat := 0
  deriving DecidableEq, Repr

def PointerChain.moduleRooted (chain : PointerChain) : Bool := !chain.moduleName.isEmpty

def PointerChain.scanTimeBase (chain : PointerChain) : Nat := chain.moduleBase + chain.moduleOffset

def PointerChain.valid (chain : PointerChain) : Bool :=
  chain.moduleRooted || chain.moduleOffset != 0

end PointerLab.Domain
