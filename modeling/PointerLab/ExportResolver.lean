import PointerLab.AobScan
import PointerLab.OrderedMap
import PointerLab.Utf

set_option autoImplicit false

/- `engine_symbols/ExportResolver.cpp`: the exports of a module, read out of the memory of the
target, and an export followed to where it really lives. -/
namespace PointerLab.ExportResolver

open Domain TargetView AutoAssembler OrderedMap

/-- The name of an export, as the target has it. -/
abbrev Name := List UInt8

structure ExportEntry where
  name : Name
  address : Nat := 0
  ordinal : Nat := 0
  unresolvedForwarder : Name := []
  deriving DecidableEq, Repr

/-- What an export directory tells of one export, before the string of a forwarder is read. -/
structure NamedExport where
  name : Name
  ordinal : Nat
  functionRva : Nat
  deriving DecidableEq, Repr

/-- The conversions of the system, and `std::sort` by the names, which leaves open what order
exports of one name have. -/
structure Library where
  widen : Name → WideText
  narrow : WideText → String
  sort : List NamedExport → List NamedExport
  perm : ∀ named, (sort named).Perm named

/-- The bytes of a name as they stand in a message. -/
def shownName (name : Name) : String := String.ofList (name.map fun byte => Char.ofNat byte.toNat)

/-- A little-endian number of a buffer. -/
def readScalar (width : Nat) (buffer : List UInt8) (offset : Nat) : Option Nat :=
  if buffer.length < offset + width then none
  else some (littleEndian ((buffer.drop offset).take width))

/-- An address of a module, in `uintptr_t` arithmetic. -/
def placed (base rva : Nat) : Nat := (base + rva) % addressSpace

section Reads

variable (view : TargetView)

/-- The loop of `readCString` over chunks of 64 bytes; `text` is what has been read. -/
def readChunks (address : Nat) : (chunks : Nat) → (text : Name) → Name
  | 0, _ => []
  | chunks + 1, text =>
      match view.readBytes (placed address text.length) 64 with
      | .error _ => []
      | .ok bytes =>
          let part := bytes.takeWhile fun byte => byte != 0
          if bytes.isEmpty then []
          else if part.length < bytes.length then text ++ part
          else if bytes.length < 64 then []
          else readChunks address chunks (text ++ bytes)

/-- A text with its NUL among the first 4096 bytes, or nothing. -/
def readCString (address : Nat) : Name := readChunks view address (4096 / 64) []

/-- The first entry of the data directory. -/
structure Directory where
  rva : Nat
  size : Nat
  deriving DecidableEq, Repr

/-- Where the data directory is in the optional header of PE32 and of PE32+. -/
def dataDirectoryOffset (magic : Nat) : Option Nat :=
  if magic = 0x10B then some 96 else if magic = 0x20B then some 112 else none

def findExportDirectory (moduleBase : Nat) : Option Directory :=
  match view.readBytes moduleBase 0x400 with
  | .error _ => none
  | .ok buffer =>
      if buffer.length < 0x40 then none
      else do
        let mz ← readScalar 2 buffer 0
        guard (mz = 0x5A4D)
        let lfanew ← readScalar 4 buffer 0x3C
        let pe ← readScalar 4 buffer lfanew
        guard (pe = 0x4550)
        let optionalHeader := lfanew + 4 + 20
        let magic ← readScalar 2 buffer optionalHeader
        let directoryOffset ← dataDirectoryOffset magic
        let rva ← readScalar 4 buffer (optionalHeader + directoryOffset)
        let size ← readScalar 4 buffer (optionalHeader + directoryOffset + 4)
        guard (rva ≠ 0 ∧ size ≠ 0)
        pure ⟨rva, size⟩

/-- What is read of an export directory before the loop over the names. -/
structure ExportTables where
  directory : Directory
  ordinalBase : Nat
  functionCount : Nat
  nameCount : Nat
  nameRvas : List UInt8
  ordinals : List UInt8
  functions : List UInt8
  deriving DecidableEq, Repr

/-- A read of a whole table. -/
def readTable (address size : Nat) : Option (List UInt8) :=
  match view.readBytes address size with
  | .error _ => none
  | .ok bytes => if bytes.length < size then none else some bytes

/-- The tables of a module, or nothing where it has no names. -/
def readTables (moduleBase : Nat) : Result (Option ExportTables) :=
  match findExportDirectory view moduleBase with
  | none => fail ("The module at " ++ hexString moduleBase ++ " has no readable export directory.")
  | some directory =>
      match readTable view (placed moduleBase directory.rva) 40 with
      | none => fail "Could not read the export directory."
      | some dir =>
          match readScalar 4 dir 0x10, readScalar 4 dir 0x14, readScalar 4 dir 0x18,
              readScalar 4 dir 0x1C, readScalar 4 dir 0x20, readScalar 4 dir 0x24 with
          | some ordinalBase, some functionCount, some nameCount, some functionsRva, some namesRva,
              some ordinalsRva =>
              if 100000 < nameCount ∨ 100000 < functionCount then
                fail "The export directory is implausible and was rejected."
              else if nameCount = 0 then .ok none
              else
                match readTable view (placed moduleBase namesRva) (nameCount * 4),
                    readTable view (placed moduleBase ordinalsRva) (nameCount * 2),
                    readTable view (placed moduleBase functionsRva) (functionCount * 4) with
                | some nameRvas, some ordinals, some functions =>
                    .ok (some ⟨directory, ordinalBase, functionCount, nameCount, nameRvas, ordinals,
                      functions⟩)
                | _, _, _ => fail "The export tables could not be read in full."
          | _, _, _, _, _, _ => fail "The export directory is truncated."

/-- One round of the loop over the names. -/
def readExport (moduleBase : Nat) (tables : ExportTables) (index : Nat) : Option NamedExport := do
  let nameRva ← readScalar 4 tables.nameRvas (index * 4)
  let ordinalIndex ← readScalar 2 tables.ordinals (index * 2)
  guard (ordinalIndex < tables.functionCount)
  let functionRva ← readScalar 4 tables.functions (ordinalIndex * 4)
  guard (functionRva ≠ 0)
  let name := readCString view (placed moduleBase nameRva)
  guard (name ≠ [])
  pure ⟨name, (ordinalIndex + tables.ordinalBase) % 2 ^ 16, functionRva⟩

/-- The test for a forwarder. The sum is one of 32-bit numbers. -/
def Directory.holds (directory : Directory) (functionRva : Nat) : Bool :=
  directory.rva ≤ functionRva && functionRva < (directory.rva + directory.size) % 2 ^ 32

def entryOf (moduleBase : Nat) (directory : Directory) (named : NamedExport) : ExportEntry :=
  if directory.holds named.functionRva then
    { name := named.name, ordinal := named.ordinal
      unresolvedForwarder := readCString view (placed moduleBase named.functionRva) }
  else
    { name := named.name, ordinal := named.ordinal
      address := placed moduleBase named.functionRva }

/-- The named exports of a module in the order of the names. The comparison sees the names only,
so the exports can be put in order before the entries are made of them. -/
def namedExports (library : Library) (moduleBase : Nat) (tables : ExportTables) :
    List NamedExport :=
  library.sort ((List.range tables.nameCount).filterMap (readExport view moduleBase tables))

def parsed (library : Library) (moduleBase : Nat) (tables : ExportTables) : List ExportEntry :=
  (namedExports view library moduleBase tables).map (entryOf view moduleBase tables.directory)

end Reads

/-- What a resolver keeps between calls: the exports it has parsed, and the generation of the
session it did so under. -/
structure Cache where
  generation : Nat := 0
  modules : List (Nat × List ExportEntry) := []

def baseOrder : KeyOrder Nat Nat := ⟨id, fun left right => decide (left < right)⟩

section Calls

variable (library : Library) (view : TargetView) (generation : Nat)

/-- `ExportResolver::exports`, where the session stands still. -/
def exports (moduleBase : Nat) (cache : Cache) : Cache × Result (List ExportEntry) :=
  if !view.attached then (cache, fail "No target process is attached.")
  else
    let fresh : Cache := if generation ≠ cache.generation then ⟨generation, []⟩ else cache
    match find baseOrder moduleBase fresh.modules with
    | some cached => (fresh, .ok cached)
    | none =>
        match readTables view moduleBase with
        | .error failure => (fresh, .error failure)
        | .ok none => (fresh, .ok [])
        | .ok (some tables) =>
            let result := parsed view library moduleBase tables
            (⟨generation, assign baseOrder moduleBase result fresh.modules⟩, .ok result)

/-- A forwarder "KERNELBASE.LoadLibraryW" split at its last dot. -/
def splitForwarder (forwarder : Name) : Option (Name × Name) :=
  let target := (forwarder.reverse.takeWhile fun byte => byte != 0x2E).reverse
  if target.length = forwarder.length ∨ target = [] then none
  else some (forwarder.take (forwarder.length - target.length - 1), target)

/-- The hops of `resolve` that are left. -/
def resolveFrom (exportName : Name) : (hops : Nat) → (currentModule : WideText) →
    (currentExport : Name) → Cache → Cache × Result Nat
  | 0, _, _, cache =>
      (cache, fail ("The forwarder chain for " ++ shownName exportName ++ " did not terminate."))
  | hops + 1, currentModule, currentExport, cache =>
      let base := moduleBase view currentModule
      if base = 0 then
        (cache, fail (library.narrow currentModule ++ " is not loaded in the target."))
      else
        match exports library view generation base cache with
        | (cache, .error failure) => (cache, .error failure)
        | (cache, .ok table) =>
            match table.find? fun entry => entry.name == currentExport with
            | none =>
                (cache, fail (shownName currentExport ++ " is not exported by " ++
                  library.narrow currentModule ++ "."))
            | some entry =>
                if entry.unresolvedForwarder.isEmpty then (cache, .ok entry.address)
                else
                  match splitForwarder entry.unresolvedForwarder with
                  | none =>
                      (cache, fail (shownName currentExport ++ " forwards to \"" ++
                        shownName entry.unresolvedForwarder ++ "\", which could not be parsed."))
                  | some (forwardedModule, target) =>
                      if target.head? = some 0x23 then
                        (cache, fail (shownName currentExport ++ " forwards to ordinal " ++
                          shownName target ++ ", which this resolver does not follow."))
                      else resolveFrom exportName hops (library.widen forwardedModule) target cache

def resolve (moduleName : WideText) (exportName : Name) (cache : Cache) : Cache × Result Nat :=
  resolveFrom library view generation exportName 8 moduleName exportName cache

end Calls

end PointerLab.ExportResolver
