import PointerLab.Pieces
import PointerLab.Values

set_option autoImplicit false

/- `storage/ProjectStore.cpp`: the text of a project file, written and read. -/
namespace PointerLab.ProjectStore

open Domain Digits Pieces

/-- The conversions of the system between UTF-8 and UTF-16. -/
structure Conversion where
  multiByteToWideChar : Text → WideText
  wideCharToMultiByte : WideText → Text

/-- `domain::widen`. -/
def widen (api : Conversion) (text : Text) : WideText :=
  if text.isEmpty then [] else api.multiByteToWideChar text

/-- `domain::narrow`. -/
def narrow (api : Conversion) (text : WideText) : Text :=
  if text.isEmpty then [] else api.wideCharToMultiByte text

/-- A row of the address list. -/
structure AddressEntry where
  id : Nat := 0
  address : Nat := 0
  type : ValueType := .int32
  frozenValue : List UInt8 := []
  description : Text := []
  group : Text := []
  hotkey : Text := []
  frozen : Bool := false
  chain : Option PointerChain := none
  resolved : Bool := true
  deriving DecidableEq, Repr

/-- One named slot of a structure. -/
structure StructureField where
  offset : Int := 0
  type : ValueType := .int32
  length : Nat := 0
  name : Text := []
  deriving DecidableEq, Repr

/-- The length only counts for the types without a width of their own. -/
def StructureField.size (field : StructureField) : Nat :=
  let fixed := valueTypeSize field.type
  if fixed != 0 then fixed else field.length

structure Structure where
  id : Nat := 0
  name : Text := []
  fields : List StructureField := []
  deriving DecidableEq, Repr

structure SavedSymbol where
  name : Text
  expression : Text
  deriving DecidableEq, Repr

structure SavedScript where
  name : Text
  source : Text
  deriving DecidableEq, Repr

structure ProjectTable where
  lastPid : Nat := 0
  lastProcessName : WideText := []
  lastBitness : Bitness := .x64
  entries : List AddressEntry := []
  symbols : List SavedSymbol := []
  scripts : List SavedScript := []
  structures : List Structure := []
  deriving DecidableEq, Repr

/-- An unsigned number on a stream. -/
def decimal (value : Nat) : Text := Nat.toDigits 10 value

/-- The same after `std::hex`. -/
def hex (value : Nat) : Text := Nat.toDigits 16 value

/-- `static_cast<std::uintptr_t>` of a `std::ptrdiff_t`. -/
def toUnsigned (value : Int) : Nat := (value % addressSpace).toNat

/-- `static_cast<std::ptrdiff_t>` of a `std::uintptr_t`. -/
def toSigned (value : Nat) : Int :=
  if value < 0x8000000000000000 then value else (value : Int) - addressSpace

def defaultFieldName (offset : Int) : Text :=
  if offset < 0 then "field_minus_".toList ++ hex (toUnsigned (-offset))
  else "field_".toList ++ hex (toUnsigned offset)

def formatOffsets (offsets : List Int) : Text :=
  List.intercalate [','] (offsets.map fun offset => hex (toUnsigned offset))

/-- A sign before a number. -/
def skipSign : Text → Bool × Text
  | '-' :: rest => (true, rest)
  | '+' :: rest => (false, rest)
  | text => (false, text)

/-- `0x` before a digit. -/
def skipBase : Text → Text
  | '0' :: 'x' :: digit :: rest =>
      if isHexDigit digit then digit :: rest else '0' :: 'x' :: digit :: rest
  | '0' :: 'X' :: digit :: rest =>
      if isHexDigit digit then digit :: rest else '0' :: 'X' :: digit :: rest
  | text => text

/-- `std::stoull(text, &consumed, 16)`: the value and how much was consumed, or an exception. -/
def stoull16 (text : Text) : Option (Nat × Nat) :=
  let (negative, unsigned) := skipSign (text.dropWhile isSpace)
  let body := skipBase unsigned
  let digits := body.takeWhile isHexDigit
  let value := number 16 digits
  if digits.isEmpty || addressSpace ≤ value then none
  else
    some (if negative then (addressSpace - value) % addressSpace else value,
      text.length - (body.length - digits.length))

def parseOffset (field : Text) : Option Int :=
  if field.isEmpty then none
  else
    match stoull16 field with
    | none => none
    | some (value, consumed) => if consumed != field.length then none else some (toSigned value)

def parseOffsets (text : Text) : Option (List Int) := (pieces ',' text).mapM parseOffset

def escapeChar (c : Char) : Text :=
  if c == '\\' || c == '|' || c == '\n' || c == '\r' then
    ['\\', if c == '\n' then 'n' else if c == '\r' then 'r' else c]
  else [c]

def escape (text : Text) : Text := text.flatMap escapeChar

def unescape : Text → Text
  | '\\' :: n :: rest => (if n == 'n' then '\n' else if n == 'r' then '\r' else n) :: unescape rest
  | c :: rest => c :: unescape rest
  | [] => []

/-- The loop of `splitEscaped`: whether a backslash is pending, and the part so far. -/
def splitFrom : Bool → Text → Text → List Text
  | _, current, [] => [unescape current]
  | true, current, c :: rest => splitFrom false (current ++ ['\\', c]) rest
  | false, current, c :: rest =>
      if c == '\\' then splitFrom true current rest
      else if c == '|' then unescape current :: splitFrom false [] rest
      else splitFrom false (current ++ [c]) rest

def splitEscaped (line : Text) : List Text := splitFrom false [] line

def parseUnsigned (text : Text) (base : Nat) : Option Nat :=
  let isValidDigit := fun c => if base == 16 then isHexDigit c else c.isDigit
  if text.isEmpty || 20 < text.length then none
  else if text.any fun c => !isValidDigit c then none
  else if number base text < addressSpace then some (number base text)
  else none

section Write

variable (api : Conversion)

/-- One line of the file. -/
def record (fields : List Text) : Text := List.intercalate ['|'] fields

def bitnessText : Bitness → Text
  | .x86 => "x86".toList
  | .x64 => "x64".toList

def symbolLine (symbol : SavedSymbol) : Text :=
  record ["symbol".toList, escape symbol.name, escape symbol.expression]

def scriptLine (script : SavedScript) : Text :=
  record ["script".toList, escape script.name, escape script.source]

def fieldLine (field : StructureField) : Text :=
  record ["field".toList, hex (toUnsigned field.offset), valueTypeName field.type,
    decimal field.length, escape field.name]

def structureLines (structure_ : Structure) : List Text :=
  record ["struct".toList, escape structure_.name] :: structure_.fields.map fieldLine

def entryLine (entry : AddressEntry) : Text :=
  record ["entry".toList, decimal entry.id, hex entry.address, valueTypeName entry.type,
    if entry.frozen then ['1'] else ['0'],
    escape entry.description, escape entry.group, escape entry.hotkey,
    bytesToHex entry.frozenValue false,
    match entry.chain with | some chain => escape (narrow api chain.moduleName) | none => [],
    match entry.chain with | some chain => hex chain.moduleOffset | none => hex 0,
    match entry.chain with | some chain => formatOffsets chain.offsets | none => []]

/-- The lines of the file, in order. -/
def tableLines (table : ProjectTable) : List Text :=
  ["IRETABLE 3".toList,
    record ["pid".toList, decimal table.lastPid],
    record ["process".toList, escape (narrow api table.lastProcessName)],
    record ["bitness".toList, bitnessText table.lastBitness]] ++
  table.symbols.map symbolLine ++ table.scripts.map scriptLine ++
  table.structures.flatMap structureLines ++ table.entries.map (entryLine api)

/-- `writeTable`: what `save` puts into the file. -/
def writeTable (table : ProjectTable) : Text := (tableLines api table).flatMap (· ++ ['\n'])

end Write

section Read

variable (api : Conversion)

def isBreak (c : Char) : Bool := c == '\r' || c == '\n'

/-- A line without the line breaks at its end. -/
def stripBreaks (line : Text) : Text := (line.reverse.dropWhile isBreak).reverse

def stripBom : Text → Text
  | '\xEF' :: '\xBB' :: '\xBF' :: rest => rest
  | line => line

def readPid (table : ProjectTable) (value : Text) : ProjectTable :=
  match parseUnsigned value 10 with
  | some pid => { table with lastPid := pid % 0x100000000 }
  | none => table

def readBitness (table : ProjectTable) (value : Text) : ProjectTable :=
  if value == "x86".toList then { table with lastBitness := .x86 }
  else if value == "x64".toList then { table with lastBitness := .x64 }
  else table

def readSymbol (table : ProjectTable) (name expression : Text) : ProjectTable :=
  if name.isEmpty || expression.isEmpty then table
  else { table with symbols := table.symbols ++ [{ name, expression }] }

/-- An empty source is kept: it is a script that is not written yet. -/
def readScript (table : ProjectTable) (name source : Text) : ProjectTable :=
  if name.isEmpty && source.isEmpty then table
  else { table with scripts := table.scripts ++ [{ name, source }] }

def readStruct (table : ProjectTable) (name : Text) : ProjectTable :=
  let id := table.structures.length + 1
  let name := if name.isEmpty then "Structure ".toList ++ decimal id else name
  { table with structures := table.structures ++ [{ id, name }] }

/-- A field belongs to the structure above it. -/
def readField (table : ProjectTable) (offset type length name : Text) : ProjectTable :=
  match table.structures.getLast? with
  | none => table
  | some last =>
      match parseUnsigned offset 16, parseValueType type, parseUnsigned length 10 with
      | some offset, some type, some length =>
          let offset := toSigned offset
          let name := if name.isEmpty then defaultFieldName offset else name
          let field : StructureField := { offset, type, length, name }
          if field.size = 0 then table
          else
            { table with
              structures := table.structures.dropLast ++
                [{ last with fields := last.fields ++ [field] }] }
      | _, _, _ => table

/-- The chain of an entry, in the last three of its fields. A chain that does not parse
costs only the chain. -/
def readChain (parts : List Text) : Option PointerChain :=
  let name := parts.getD 9 []
  let base := parts.getD 10 []
  if 12 ≤ parts.length && (!name.isEmpty || (parseUnsigned base 16).getD 0 != 0) then
    match parseUnsigned base 16, parseOffsets (parts.getD 11 []) with
    | some moduleOffset, some offsets => some { moduleName := widen api name, moduleOffset, offsets }
    | _, _ => none
  else none

def readEntry (table : ProjectTable) (parts : List Text) : ProjectTable :=
  match parseUnsigned (parts.getD 1 []) 10, parseUnsigned (parts.getD 2 []) 16,
    parseValueType (parts.getD 3 []) with
  | some id, some address, some type =>
      let chain := readChain api parts
      let entry : AddressEntry :=
        { id, address, type,
          frozen := parts.getD 4 [] == ['1'],
          description := parts.getD 5 [],
          group := parts.getD 6 [],
          hotkey := parts.getD 7 [],
          frozenValue := parseHexBytes (parts.getD 8 []),
          chain,
          -- The saved address was resolved in a process that has since exited.
          resolved := chain.isNone }
      { table with entries := table.entries ++ [entry] }
  | _, _, _ => table

def readRecord (table : ProjectTable) (parts : List Text) : ProjectTable :=
  let kind := parts.getD 0 []
  let count := parts.length
  if kind == "pid".toList && 2 ≤ count then readPid table (parts.getD 1 [])
  else if kind == "process".toList && 2 ≤ count then
    { table with lastProcessName := widen api (parts.getD 1 []) }
  else if kind == "bitness".toList && 2 ≤ count then readBitness table (parts.getD 1 [])
  else if kind == "symbol".toList && 3 ≤ count then
    readSymbol table (parts.getD 1 []) (parts.getD 2 [])
  else if kind == "script".toList && 3 ≤ count then
    readScript table (parts.getD 1 []) (parts.getD 2 [])
  else if kind == "struct".toList && 2 ≤ count then readStruct table (parts.getD 1 [])
  else if kind == "field".toList && 5 ≤ count then
    readField table (parts.getD 1 []) (parts.getD 2 []) (parts.getD 3 []) (parts.getD 4 [])
  else if kind == "entry".toList && 9 ≤ count then readEntry api table parts
  else table

def readLine (table : ProjectTable) (line : Text) : ProjectTable :=
  let line := stripBreaks line
  if line.isEmpty then table else readRecord api table (splitEscaped line)

def knownHeaders : List Text :=
  ["IRETABLE 1".toList, "IRETABLE 2".toList, "IRETABLE 3".toList]

/-- `ProjectStore::load`, of a file that may not open. -/
def load (file : Option Text) : Result ProjectTable :=
  match file with
  | none => fail "Could not open project file."
  | some text =>
      let lines := pieces '\n' text
      let header := stripBreaks (stripBom (lines.headD []))
      if header ∈ knownHeaders then .ok (lines.tail.foldl (readLine api) {})
      else fail "This is not a Pointer Lab project file, or it was written by a newer version."

end Read

end PointerLab.ProjectStore
