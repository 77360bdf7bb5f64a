import Mathlib.Data.List.Basic
import PointerLab.OrderedMap
import PointerLab.Pieces
import PointerLab.Values

set_option autoImplicit false

/- How `engine_aa/AutoAssembler.cpp` reads the text of a script: sections, directives,
labels, data, and the names that stand for other text. -/
namespace PointerLab.AutoAssembler

open Domain OrderedMap

/-- `std::lexicographical_compare`, byte by byte. -/
def before (left right : Text) : Bool := decide (left < right)

/-- `CaseLess`. -/
def caseLess : KeyOrder Text Text := ⟨lower, before⟩

/-- The order of a plain `std::map`. -/
def caseful : KeyOrder Text Text := ⟨id, before⟩

abbrev SymbolMap := List (Text × Nat)

abbrev DefineMap := List (Text × Text)

structure Line where
  number : Nat
  text : Text
  deriving DecidableEq, Repr

structure Directive where
  name : Text
  args : List Text
  deriving DecidableEq, Repr

/-- A text without the blanks at its ends. -/
def trimmed (blank : Char → Bool) (text : Text) : Text :=
  ((text.dropWhile blank).reverse.dropWhile blank).reverse

def isBlank (c : Char) : Bool := c == ' ' || c == '\t' || c == '\r'

def trim (text : Text) : Text := trimmed isBlank text

def identifierChar (c : Char) : Bool := c.isAlphanum || c == '_'

def beforeSlashes : Text → Text
  | '/' :: '/' :: _ => []
  | c :: rest => c :: beforeSlashes rest
  | [] => []

/-- A line without its comment. -/
def uncommented (raw : Text) : Text := trim (beforeSlashes (raw.takeWhile (· != ';')))

/-- The loop of `sectionLines`: the lines of the section, and whether a marker was seen. -/
def sectionFrom (enableSection : Bool) : Bool → Nat → List Text → List Line × Bool
  | _, _, [] => ([], false)
  | inSection, number, raw :: rest =>
      let text := uncommented raw
      let marker := lower text
      if text.isEmpty then sectionFrom enableSection inSection (number + 1) rest
      else if marker = "[enable]".toList then
        ((sectionFrom enableSection enableSection (number + 1) rest).1, true)
      else if marker = "[disable]".toList then
        ((sectionFrom enableSection (!enableSection) (number + 1) rest).1, true)
      else
        let (lines, sawMarker) := sectionFrom enableSection inSection (number + 1) rest
        (if inSection then ⟨number, text⟩ :: lines else lines, sawMarker)

def sectionLines (source : Text) (enableSection : Bool) : List Line :=
  let (lines, sawMarker) :=
    sectionFrom enableSection enableSection 1 (Pieces.pieces '\n' source)
  if !sawMarker && !enableSection then [] else lines

/-- `name(arg, arg)`. -/
def parseDirective (text : Text) : Option Directive :=
  let name := trim (text.takeWhile (· != '('))
  match text.dropWhile (· != '(') with
  | [] => none
  | _ :: inner =>
      if inner.getLast? ≠ some ')' then none
      else if name.isEmpty || name.any fun c => !identifierChar c then none
      else
        let args := (inner.dropLast.splitOn ',').map trim
        some ⟨lower name, if args = [[]] then [] else args⟩

/-- What stands before the colon that ends a line of at least two characters. -/
def beforeColon (text : Text) : Option Text :=
  if text.length < 2 || text.getLast? != some ':' then none else some (trim text.dropLast)

/-- `name:` on a line of its own. -/
def parseLabelDefinition (text : Text) : Option Text :=
  match beforeColon text with
  | none => none
  | some name =>
      if name.isEmpty || name.any (fun c => !identifierChar c) || (name.take 1).any Char.isDigit then
        none
      else some name

/-- A line ending in a colon that can only be an origin. -/
def parseOriginExpression (text : Text) : Option Text :=
  match beforeColon text with
  | none => none
  | some name =>
      if name.isEmpty || name.any fun c => c == ' ' || c == '\t' then none else some name

def dataWidth (mnemonic : Text) : Nat :=
  if mnemonic = "db".toList then 1
  else if mnemonic = "dw".toList then 2
  else if mnemonic = "dd".toList then 4
  else if mnemonic = "dq".toList then 8
  else 0

/-- The low bytes of a number, the lowest first. -/
def littleEndianBytes : Nat → Nat → List UInt8
  | 0, _ => []
  | width + 1, number => UInt8.ofNat (number % 256) :: littleEndianBytes width (number / 256)

/-- db/dw/dd/dq. Values are hexadecimal, comma- or space-separated. -/
def parseData (text : Text) : Option (List UInt8) :=
  let unread := text.dropWhile isSpace
  let width := dataWidth (lower (unread.takeWhile fun c => !isSpace c))
  let rest := (unread.dropWhile fun c => !isSpace c).takeWhile (· != '\n')
  if width = 0 then none
  else
    let tokens := (rest.splitOnP fun c => c == ',' || c == ' ' || c == '\t').filter (!·.isEmpty)
    match tokens.mapM parseAddress with
    | none => none
    | some values =>
        let bytes := values.flatMap (littleEndianBytes width)
        if bytes.isEmpty then none else some bytes

/-- The identifiers of a text replaced by what a lookup has for them; `identifier` is what
has been read of the current one. -/
def replaceFrom (lookup : Text → Option Text) : Text → Text → Text
  | identifier, [] => if identifier.isEmpty then [] else (lookup identifier).getD identifier
  | identifier, c :: rest =>
      if identifierChar c then replaceFrom lookup (identifier ++ [c]) rest
      else
        (if identifier.isEmpty then [] else (lookup identifier).getD identifier) ++
          c :: replaceFrom lookup [] rest

def replaceNames (lookup : Text → Option Text) (text : Text) : Text := replaceFrom lookup [] text

def substituteText (text : Text) (defines : DefineMap) : Text :=
  if defines.isEmpty then text else replaceNames (find caseLess · defines) text

def asSubstitutions (symbols : SymbolMap) : DefineMap :=
  symbols.foldl (fun out entry => emplace caseLess entry.1 (toHex entry.2) out) []

/-- A text has no blank at its ends. -/
def Flush (blank : Char → Bool) (text : Text) : Prop :=
  (∀ c, text.head? = some c → blank c = false) ∧ ∀ c, text.getLast? = some c → blank c = false

theorem dropWhile_eq_self {blank : Char → Bool} {text : Text}
    (clear : ∀ c, text.head? = some c → blank c = false) : text.dropWhile blank = text := by
  cases text with
  | nil => rfl
  | cons c rest => rw [List.dropWhile_cons_of_neg (by simp [clear c rfl])]

theorem trimmed_of_flush {blank : Char → Bool} {text : Text} (flush : Flush blank text) :
    trimmed blank text = text := by
  rw [trimmed, dropWhile_eq_self flush.1, dropWhile_eq_self, List.reverse_reverse]
  intro c last
  rw [List.head?_reverse] at last
  exact flush.2 c last

theorem head?_dropWhile {blank : Char → Bool} {text : Text} {c : Char}
    (first : (text.dropWhile blank).head? = some c) : blank c = false := by
  have clear := List.head?_dropWhile_not blank text
  rwa [first] at clear

theorem flush_trimmed (blank : Char → Bool) (text : Text) : Flush blank (trimmed blank text) := by
  constructor
  · intro c first
    rw [trimmed, List.head?_reverse] at first
    obtain ⟨front, whole⟩ := List.dropWhile_suffix blank (l := (text.dropWhile blank).reverse)
    have last : (text.dropWhile blank).reverse.getLast? = some c := by
      rw [← whole, List.getLast?_append, first, Option.some_or]
    rw [List.getLast?_reverse] at last
    exact head?_dropWhile last
  · intro c last
    rw [trimmed, List.getLast?_reverse] at last
    exact head?_dropWhile last

/-- The arguments of a directive have no blanks at their ends. -/
theorem parseDirective_flush {text : Text} {directive : Directive}
    (parsed : parseDirective text = some directive) : ∀ arg ∈ directive.args, Flush isBlank arg := by
  simp only [parseDirective] at parsed
  split at parsed
  · contradiction
  · split at parsed
    · contradiction
    · split at parsed
      · contradiction
      · cases parsed
        intro arg member
        dsimp only at member
        split at member
        · contradiction
        · obtain ⟨part, _, rfl⟩ := List.mem_map.mp member
          exact flush_trimmed isBlank part

theorem replaceFrom_none (identifier text : Text) :
    replaceFrom (fun _ => none) identifier text = identifier ++ text := by
  induction text generalizing identifier with
  | nil =>
      rw [replaceFrom, List.append_nil]
      split
      · rename_i empty
        exact (List.isEmpty_iff.mp empty).symm
      · rfl
  | cons c rest ih =>
      rw [replaceFrom]
      split
      · rw [ih, List.append_assoc, List.singleton_append]
      · rw [ih, List.nil_append]
        split
        · rename_i empty
          rw [List.isEmpty_iff.mp empty]
        · rfl

/-- Replacing depends on the answers of the lookup only. -/
theorem substituteText_eq (text : Text) (defines : DefineMap) :
    substituteText text defines = replaceNames (find caseLess · defines) text := by
  unfold substituteText
  split
  · rename_i empty
    rw [List.isEmpty_iff.mp empty]
    exact (replaceFrom_none [] text).symm
  · rfl

theorem find_asSubstitutions (symbols : SymbolMap) (name : Text) :
    find caseLess name (asSubstitutions symbols) = (find caseLess name symbols).map toHex := by
  unfold asSubstitutions
  rw [find_emplaceAll]
  rfl

/-- A name, in any spelling, is replaced by the address the map gives it. -/
theorem substituteText_symbols (text : Text) (symbols : SymbolMap) :
    substituteText text (asSubstitutions symbols) =
      replaceNames (fun name => (find caseLess name symbols).map toHex) text := by
  rw [substituteText_eq]
  simp only [find_asSubstitutions]

example : sectionLines "[ENABLE]\nnop ; a\n\n[disable]\nDB 1".toList true = [⟨2, "nop".toList⟩] := by
  decide

example : parseDirective "Alloc (cave, 0x10 )".toList =
    some ⟨"alloc".toList, ["cave".toList, "0x10".toList]⟩ := by
  decide

end PointerLab.AutoAssembler
