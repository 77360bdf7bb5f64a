import PointerLab.AobScan
import PointerLab.ScriptText

set_option autoImplicit false

/- `engine_symbols/SymbolTable.cpp`: names for addresses. How the exports of a module are
read out of the target is a parameter. -/
namespace PointerLab.SymbolTable

open Domain AutoAssembler

structure Symbol where
  name : Text
  address : Nat
  /-- What the user typed, when the symbol was defined from an expression. -/
  expression : Text := []
  deriving DecidableEq, Repr

def trim (text : Text) : Text := trimmed (fun c => c == ' ' || c == '\t') text

def sameName (a b : Text) : Bool := lower a == lower b

/-- One `+hex` or `-hex` term. -/
structure Term where
  subtract : Bool
  text : Text
  deriving DecidableEq, Repr

def isSign (c : Char) : Bool := c == '+' || c == '-'

/-- The terms of an expression from a sign on; `current` is what has been read of the first. -/
def termsFrom (subtract : Bool) : Text → Text → Option (List Term)
  | current, [] => if (trim current).isEmpty then none else some [⟨subtract, trim current⟩]
  | current, c :: rest =>
      if isSign c then
        if (trim current).isEmpty then none
        else (termsFrom (c == '-') [] rest).map (⟨subtract, trim current⟩ :: ·)
      else termsFrom subtract (current ++ [c]) rest

/-- "client.dll+0x4A-8" into "client.dll" and {+0x4A, -8}. -/
def split (expression : Text) : Option (Text × List Term) :=
  let head := trim (expression.takeWhile fun c => !isSign c)
  if head.isEmpty then none
  else
    match expression.dropWhile fun c => !isSign c with
    | [] => some (head, [])
    | sign :: rest => (termsFrom (sign == '-') [] rest).map (head, ·)

/-- A term split at its last `.` or `!`, when something follows it. -/
def splitExport (term : Text) : Option (Text × Text) :=
  let exportName := (term.reverse.takeWhile fun c => !(c == '.' || c == '!')).reverse
  if exportName.length = term.length || exportName.isEmpty then none
  else some (term.take (term.length - exportName.length - 1), exportName)

/-- `ExportResolver::resolve` on a module of the target. -/
abbrev Exports := TargetView → WideText → Text → Result Nat

/-- What a name resolves against. -/
structure Resolver where
  widen : Text → WideText
  exports : Exports

/-- The last way a term may read: as a bare address. -/
def bareAddress (term : Text) (otherwise : String) : Result Nat :=
  match parseAddress term with
  | some address => .ok address
  | none => fail ("\"" ++ String.ofList term ++ otherwise)

def resolveTerm (resolver : Resolver) (view : TargetView) (table : List Symbol) (term : Text) :
    Result Nat :=
  match table.find? fun symbol => sameName symbol.name term with
  | some symbol => .ok symbol.address
  | none =>
      let unknown := "\" is not a hexadecimal address, a loaded module, an export of one, or a " ++
        "symbol you have defined."
      if !view.attached then
        bareAddress term "\" names something in the target, but nothing is attached."
      else if moduleBase view (resolver.widen term) != 0 then
        .ok (moduleBase view (resolver.widen term))
      else
        match splitExport term with
        | none => bareAddress term unknown
        | some (moduleName, exportName) =>
            if moduleBase view (resolver.widen moduleName) != 0 then
              match resolver.exports view (resolver.widen moduleName) exportName with
              | .ok address => .ok address
              | .error failure =>
                  fail (String.ofList moduleName ++ " is loaded, but exports no \"" ++
                    String.ofList exportName ++ "\": " ++ failure.message)
            else bareAddress term unknown

/-- The offsets of an expression added to its base, in `uintptr_t` arithmetic. -/
def addTerms (address : Nat) : List Term → Result Nat
  | [] => .ok address
  | term :: rest =>
      match parseAddress term.text with
      | none => fail ("\"" ++ String.ofList term.text ++ "\" is not a hexadecimal offset.")
      | some offset =>
          addTerms ((if term.subtract then address + addressSpace - offset else address + offset) %
            addressSpace) rest

def resolve (resolver : Resolver) (view : TargetView) (table : List Symbol) (expression : Text) :
    Result Nat :=
  match split expression with
  | none => fail "Enter an address, or a name such as client.dll+0x4A2C10."
  | some (head, terms) =>
      match resolveTerm resolver view table head with
      | .error failure => .error failure
      | .ok base => addTerms base terms

/-- The first symbol of a name given its new address, or a new symbol at the end. -/
def setAddress (name : Text) (address : Nat) : List Symbol → List Symbol
  | [] => [⟨name, address, []⟩]
  | symbol :: rest =>
      if sameName symbol.name name then { symbol with address := address, expression := [] } :: rest
      else symbol :: setAddress name address rest

/-- `define` for a fixed address. -/
def define (name : Text) (address : Nat) (table : List Symbol) : List Symbol × Result Unit :=
  let trimmedName := trim name
  if trimmedName.isEmpty then (table, fail "A symbol needs a name.")
  else if (parseAddress trimmedName).isSome then
    (table, fail ("\"" ++ String.ofList trimmedName ++
      "\" reads as a hexadecimal address, so it cannot also be a symbol name."))
  else if trimmedName.any isSign then
    (table, fail "A symbol name cannot contain '+' or '-'; those separate the offsets.")
  else (setAddress trimmedName address table, .ok ())

def undefine (name : Text) (table : List Symbol) : List Symbol :=
  table.filter fun symbol => !sameName symbol.name name

example : split "client.dll+0x4A-8".toList =
    some ("client.dll".toList, [⟨false, "0x4A".toList⟩, ⟨true, "8".toList⟩]) := by
  decide

end PointerLab.SymbolTable
