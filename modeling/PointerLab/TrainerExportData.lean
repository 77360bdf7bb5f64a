import PointerLab.CppTokens
import PointerLab.ScanValues
import PointerLab.TrainerExport

set_option autoImplicit false

/- `TrainerExport::generate`: the part of `main.cpp` that the address list is written into. -/
namespace PointerLab.TrainerExport

open Domain ProjectStore CppTokens Transducers Transducer

/-- The options that the data depends on. -/
structure TrainerOptions where
  bitness : Bitness := .x64
  entries : List AddressEntry := []

section Written

variable (floats : FloatText) (api : Conversion)

def byteText (byte : UInt8) : Text :=
  "0x".toList ++ (if byte.toNat < 0x10 then ['0'] else []) ++
    (Nat.toDigits 16 byte.toNat).map Char.toUpper

def byteArray (bytes : List UInt8) : Text := List.intercalate ", ".toList (bytes.map byteText)

/-- `VK_F1` to `VK_F12`, or 0. -/
def virtualKey (hotkey : Text) : Nat :=
  match hotkey with
  | first :: rest =>
      if rest.isEmpty || (first != 'F' && first != 'f') then 0
      else
        let number := (CNumbers.decimal isSpace rest).value
        if number < 1 || 12 < number then 0 else 0x70 + (number.toNat - 1)
  | [] => 0

/-- An address with no recorded value is a thing to watch. -/
def cheats (options : TrainerOptions) : List AddressEntry :=
  options.entries.filter fun entry => !entry.frozenValue.isEmpty

def valueName (index : Nat) : Text := "cheat".toList ++ decimal index ++ "_value".toList

def offsetsName (index : Nat) : Text := "cheat".toList ++ decimal index ++ "_offsets".toList

def chainOffsets (entry : AddressEntry) : List Int :=
  (entry.chain.map PointerChain.offsets).getD []

def commentLine (entry : AddressEntry) : Text :=
  "// ".toList ++
    escapeForCpp (if entry.description.isEmpty then "entry".toList else entry.description) ++
    " -- ".toList ++ formatValue floats api entry.type entry.frozenValue ++ " (".toList ++
    valueTypeName entry.type ++ ")".toList

def valueLine (index : Nat) (entry : AddressEntry) : Text :=
  "const unsigned char ".toList ++ valueName index ++ "[] = \x7b ".toList ++
    byteArray entry.frozenValue ++ " \x7d;".toList

def offsetsLine (index : Nat) (offsets : List Int) : Text :=
  "const ptrdiff_t ".toList ++ offsetsName index ++ "[] = \x7b ".toList ++
    List.intercalate ", ".toList (offsets.map fun offset => toHex (toUnsigned offset)) ++
    " \x7d;".toList

/-- The data of one cheat. -/
def cheatData (index : Nat) (entry : AddressEntry) : Text :=
  commentLine floats api entry ++ ['\n'] ++
    (valueLine index entry ++ ['\n']) ++
    (if (chainOffsets entry).isEmpty then []
      else offsetsLine index (chainOffsets entry) ++ ['\n']) ++
    ['\n']

def allCheatData : Nat → List AddressEntry → Text
  | _, [] => []
  | index, entry :: rest => cheatData floats api index entry ++ allCheatData (index + 1) rest

def keyText (key : Nat) : Text := if key ≠ 0 then toHex key else "0".toList

/-- The description of an element of `g_cheats`. -/
def shownDescription (entry : AddressEntry) : Text :=
  if entry.description.isEmpty then toHex entry.address else entry.description

/-- The module an entry is rooted in. -/
def rootedIn (entry : AddressEntry) : Option WideText :=
  (entry.chain.filter PointerChain.moduleRooted).map PointerChain.moduleName

/-- The offset in the module, or the absolute address. -/
def baseOf (entry : AddressEntry) : Nat :=
  (entry.chain.map PointerChain.moduleOffset).getD entry.address

def moduleText (entry : AddressEntry) : Text :=
  match rootedIn entry with
  | some name => "L\"".toList ++ escapeForCpp (narrow api name) ++ "\"".toList
  | none => "nullptr".toList

def offsetsText (index : Nat) (entry : AddressEntry) : Text :=
  if (chainOffsets entry).isEmpty then "nullptr, 0".toList
  else offsetsName index ++ ", ".toList ++ decimal (chainOffsets entry).length

def elementLine (last : Bool) (index : Nat) (entry : AddressEntry) : Text :=
  "    \x7b L\"".toList ++ escapeForCpp (shownDescription entry) ++ "\", ".toList ++
    keyText (virtualKey entry.hotkey) ++ ", ".toList ++ moduleText api entry ++ ", ".toList ++
    toHex (baseOf entry) ++ ", ".toList ++ offsetsText index entry ++ ", ".toList ++
    valueName index ++ ", sizeof(".toList ++ valueName index ++ "), false \x7d".toList ++
    (if last then [] else ",".toList) ++
    (if (rootedIn entry).isSome then []
      else "  // absolute address: valid only while this run of the game lasts".toList)

def elementLines : Nat → List AddressEntry → Text
  | _, [] => []
  | index, entry :: rest =>
      elementLine api rest.isEmpty index entry ++ ['\n'] ++ elementLines (index + 1) rest

/-- From the data of the cheats to the end of `g_cheats`. -/
def dataPart (options : TrainerOptions) : Text :=
  allCheatData floats api 0 (cheats options) ++ "Cheat g_cheats[] = \x7b\n".toList ++
    elementLines api 0 (cheats options) ++ "\x7d;\n\n".toList

end Written

end PointerLab.TrainerExport
