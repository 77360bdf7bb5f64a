import PointerLab.AddressListService
import PointerLab.AtomicFile
import PointerLab.KeyedFields
import PointerLab.ValueRoundTrip

set_option autoImplicit false

/- `infra/Settings.cpp`: the preferences of the installation, as lines of a key and a value. -/
namespace PointerLab.SettingsFile

open AtomicFile CNumbers Digits Domain KeyedFields Pieces
open AddressListService (cString)

/-- What the C library makes of floating-point numbers. -/
structure Floating (Double : Type) where
  /-- `0.0001` -/
  epsilon : Double
  /-- With the digits that tell a double from every other. -/
  format : Double → Text
  /-- The number and the text behind it; nothing where no number starts. -/
  strtod : Text → Option (Double × Text)

@[ext] structure Settings (Double : Type) where
  scanMaxResults : UInt64 := 1000000
  scanFloatEpsilon : Double
  scanWritableOnly : Bool := false
  scanExecutableOnly : Bool := false
  scanTypeIndex : Int32 := 4
  pointerDepth : Int32 := 3
  pointerTypeIndex : Int32 := 4
  showMemoryViewer : Bool := true
  showDisassembly : Bool := true
  showBreakpoints : Bool := true
  showModules : Bool := true
  showMemoryRegions : Bool := true
  showLogs : Bool := true
  showPointerScanner : Bool := true
  showLuaScanner : Bool := true
  showInjection : Bool := true
  showLuaConsole : Bool := true
  deriving DecidableEq

variable {Double : Type}

def Settings.initial (floating : Floating Double) : Settings Double :=
  { scanFloatEpsilon := floating.epsilon }

def formatBool (value : Bool) : Text := if value then "true".toList else "false".toList

def parseBool (text : Text) : Option Bool :=
  if text == "true".toList || text == "1".toList then some true
  else if text == "false".toList || text == "0".toList then some false
  else none

/-- `std::strtol` in base 10. A `long` has 32 bits on Windows, and what is beyond it is its
nearest value. -/
def saturated (value : Int) : Int :=
  if value < -2 ^ 31 then -2 ^ 31 else if 2 ^ 31 ≤ value then 2 ^ 31 - 1 else value

def parseInt (text : Text) : Option Int32 :=
  let numeral := decimal isSpace (cString text)
  if numeral.digits.isEmpty || !numeral.rest.isEmpty then none
  else some (Int32.ofInt (saturated numeral.value))

/-- `std::strtoull` in base 10: what is beyond it is its greatest value, and a minus negates the
unsigned number. -/
def strtoull (numeral : Numeral) : Nat :=
  if 2 ^ 64 ≤ numeral.magnitude then 2 ^ 64 - 1 else (numeral.value % 2 ^ 64).toNat

def parseUInt64 (text : Text) : Option UInt64 :=
  if text.isEmpty || text.head? == some '-' then none
  else
    let numeral := decimal isSpace (cString text)
    if numeral.digits.isEmpty || !numeral.rest.isEmpty then none
    else some (UInt64.ofNat (strtoull numeral))

def Floating.parse (floating : Floating Double) (text : Text) : Option Double :=
  match floating.strtod (cString text) with
  | some (value, []) => some value
  | _ => none

section Fields

variable (key : String)

def flag (get : Settings Double → Bool) (set : Bool → Settings Double → Settings Double) :
    Slot (Settings Double) :=
  ⟨key.toList, Bool, get, set, formatBool, parseBool⟩

def index (get : Settings Double → Int32) (set : Int32 → Settings Double → Settings Double) :
    Slot (Settings Double) :=
  ⟨key.toList, Int32, get, set, fun value => integerText value.toInt, parseInt⟩

def count (get : Settings Double → UInt64) (set : UInt64 → Settings Double → Settings Double) :
    Slot (Settings Double) :=
  ⟨key.toList, UInt64, get, set, fun value => integerText value.toNat, parseUInt64⟩

def tolerance (floating : Floating Double) (get : Settings Double → Double)
    (set : Double → Settings Double → Settings Double) : Slot (Settings Double) :=
  ⟨key.toList, Double, get, set, floating.format, floating.parse⟩

end Fields

/-- `forEachField` -/
def settingsFields (floating : Floating Double) : List (Slot (Settings Double)) :=
  [count "scan.max_results" (·.scanMaxResults) fun value settings =>
      { settings with scanMaxResults := value },
    tolerance "scan.float_epsilon" floating (·.scanFloatEpsilon) fun value settings =>
      { settings with scanFloatEpsilon := value },
    flag "scan.writable_only" (·.scanWritableOnly) fun value settings =>
      { settings with scanWritableOnly := value },
    flag "scan.executable_only" (·.scanExecutableOnly) fun value settings =>
      { settings with scanExecutableOnly := value },
    index "scan.value_type" (·.scanTypeIndex) fun value settings =>
      { settings with scanTypeIndex := value },
    index "pointer.max_depth" (·.pointerDepth) fun value settings =>
      { settings with pointerDepth := value },
    index "pointer.value_type" (·.pointerTypeIndex) fun value settings =>
      { settings with pointerTypeIndex := value },
    flag "panel.memory_viewer" (·.showMemoryViewer) fun value settings =>
      { settings with showMemoryViewer := value },
    flag "panel.disassembly" (·.showDisassembly) fun value settings =>
      { settings with showDisassembly := value },
    flag "panel.breakpoints" (·.showBreakpoints) fun value settings =>
      { settings with showBreakpoints := value },
    flag "panel.modules" (·.showModules) fun value settings =>
      { settings with showModules := value },
    flag "panel.memory_regions" (·.showMemoryRegions) fun value settings =>
      { settings with showMemoryRegions := value },
    flag "panel.logs" (·.showLogs) fun value settings =>
      { settings with showLogs := value },
    flag "panel.pointer_scanner" (·.showPointerScanner) fun value settings =>
      { settings with showPointerScanner := value },
    flag "panel.lua_scanner" (·.showLuaScanner) fun value settings =>
      { settings with showLuaScanner := value },
    flag "panel.injection" (·.showInjection) fun value settings =>
      { settings with showInjection := value },
    flag "panel.lua_console" (·.showLuaConsole) fun value settings =>
      { settings with showLuaConsole := value }]

def settingsHeader : Text := "POINTERLAB-SETTINGS 1".toList

def stripBom (line : Text) : Text := ProjectStore.stripBom line

def stripCarriageReturn (line : Text) : Text :=
  if line.getLast? == some '\r' then line.dropLast else line

/-- Lines that are not looked at. -/
def passedOver (line : Text) : Bool := line.isEmpty || line.head? == some '#'

/-- The settings after a line, and how many lines were no use. -/
def readLine (fields : List (Slot (Settings Double))) (state : Settings Double × Nat)
    (line : Text) : Settings Double × Nat :=
  let line := stripCarriageReturn line
  if passedOver line then state
  else
    match splitLine line with
    | none => (state.1, state.2 + 1)
    | some (key, text) =>
        match assign key text fields state.1 with
        | none => (state.1, state.2 + 1)
        | some settings => (settings, state.2)

/-- What `loadSettings` makes of a file, and what it logs. -/
structure Loaded (Double : Type) where
  settings : Settings Double
  /-- It is not a settings file. -/
  ignored : Bool := false
  skipped : Nat := 0

variable (floating : Floating Double)

/-- `loadSettings` of a file that may not open. -/
def loadSettings (file : Option Text) : Loaded Double :=
  match file with
  | none => { settings := .initial floating }
  | some bytes =>
      match pieces '\n' (readAsText bytes) with
      | [] => { settings := .initial floating }
      | header :: lines =>
          if stripCarriageReturn (stripBom header) = settingsHeader then
            let (settings, skipped) :=
              lines.foldl (readLine (settingsFields floating)) (.initial floating, 0)
            { settings, skipped }
          else { settings := .initial floating, ignored := true }

/-- What `saveSettings` gives the stream. -/
def settingsText (settings : Settings Double) : Text :=
  (settingsHeader :: (settingsFields floating).map fun field => field.line settings).flatMap
    (· ++ ['\n'])

/-- `saveSettings`, whose answer is whether the settings were saved. -/
def saveSettings (weather : Weather) (path : String) (settings : Settings Double) :
    Routine Disk Bool :=
  (writeFileAtomically weather path .text (settingsText floating settings)).bind fun written =>
    .done written.isOk

theorem settingsFields_apart : (settingsFields floating).Pairwise Apart := by
  simp only [settingsFields, List.pairwise_cons, List.forall_mem_cons]
  and_intros
  all_goals first
    | exact ⟨of_decide_eq_true rfl, fun _ _ => rfl, fun _ _ => rfl⟩
    | exact fun _ inside => absurd inside List.not_mem_nil
    | exact List.Pairwise.nil

theorem complete_settingsFields : Complete (settingsFields floating) where
  apart := settingsFields_apart floating
  own := by
    simp only [settingsFields, List.forall_mem_cons]
    and_intros
    all_goals first
      | exact fun _ _ => rfl
      | exact fun _ inside => absurd inside List.not_mem_nil
  keys := by
    simp only [settingsFields, List.forall_mem_cons]
    and_intros
    all_goals exact of_decide_eq_true rfl
  whole := by
    intro left right same
    simp only [settingsFields, List.forall_mem_cons] at same
    obtain ⟨results, epsilon, writable, executable, type, depth, pointer, memory, disassembly,
      breakpoints, modules, regions, logs, pointers, scanner, injection, console, -⟩ := same
    exact Settings.ext results epsilon writable executable type depth pointer memory disassembly
      breakpoints modules regions logs pointers scanner injection console

/-- No control characters, which would end a line, a text or the file. -/
def Visible (text : Text) : Prop := ∀ c ∈ text, 0x20 ≤ c.toNat

instance (text : Text) : Decidable (Visible text) := List.decidableBAll _ text

theorem Visible.append {first second : Text} (before : Visible first) (behind : Visible second) :
    Visible (first ++ second) := List.forall_mem_append.mpr ⟨before, behind⟩

theorem Visible.not_mem {text : Text} (visible : Visible text) {c : Char}
    (control : c.toNat < 0x20) :
    c ∉ text := fun inside => absurd (visible c inside) (Nat.not_le.mpr control)

theorem cString_of_visible {text : Text} (visible : Visible text) : cString text = text := by
  rw [cString, List.takeWhile_eq_self_iff]
  intro c inside
  rw [bne_iff_ne]
  rintro rfl
  exact visible.not_mem (by decide) inside

theorem visible_integerText (value : Int) : Visible (integerText value) := by
  have digits (value : Nat) : Visible (Nat.toDigits 10 value) := by
    intro c inside
    obtain ⟨digit, small, rfl⟩ := mem_toDigits (by decide) inside
    have worth : ∀ digit < 10, 0x20 ≤ (Nat.digitChar digit).toNat := by decide
    exact worth digit small
  unfold integerText
  split
  · exact List.forall_mem_cons.mpr ⟨by decide, digits _⟩
  · exact digits _

theorem parseBool_formatBool (value : Bool) : parseBool (formatBool value) = some value := by
  cases value <;> decide

theorem value_integerText (value : Int) : (decimal isSpace (integerText value)).value = value := by
  have digits : number 10 (Nat.toDigits 10 value.natAbs) = value.natAbs :=
    number_toDigits (by decide) (by decide) _
  rw [decimal_integerText]
  unfold Numeral.value Numeral.magnitude
  simp only [digits, decide_eq_true_eq]
  split <;> omega

/-- The text of a number is a number and nothing else. -/
theorem integerText_whole (value : Int) :
    ((decimal isSpace (integerText value)).digits.isEmpty ||
      !(decimal isSpace (integerText value)).rest.isEmpty) = false := by
  rw [decimal_integerText]
  simp [Nat.toDigits_ne_nil]

theorem parseInt_integerText (value : Int32) :
    parseInt (integerText value.toInt) = some value := by
  have least := value.le_toInt
  have greatest := value.toInt_lt
  have kept : saturated value.toInt = value.toInt := by
    rw [saturated, if_neg (by omega), if_neg (by omega)]
  unfold parseInt
  rw [cString_of_visible (visible_integerText _)]
  simp only [integerText_whole, value_integerText, kept, Int32.ofInt_toInt]
  rfl

theorem parseUInt64_integerText (value : UInt64) :
    parseUInt64 (integerText value.toNat) = some value := by
  have small := value.toNat_lt
  have positive : integerText value.toNat = Nat.toDigits 10 value.toNat := if_neg (by omega)
  have digits := toDigits_digitOf value.toNat
  have starts : (integerText value.toNat).isEmpty = false ∧
      ((integerText value.toNat).head? == some '-') = false := by
    rw [positive, List.isEmpty_eq_false_iff, beq_eq_false_iff_ne]
    refine ⟨Nat.toDigits_ne_nil, fun minus => ?_⟩
    exact absurd (digits '-' (List.mem_of_mem_head? minus)) (by decide)
  have magnitude : (decimal isSpace (integerText value.toNat)).magnitude = value.toNat := by
    rw [decimal_integerText]
    exact @number_toDigits 10 (by decide) (by decide) _
  have number : strtoull (decimal isSpace (integerText value.toNat)) = value.toNat := by
    rw [strtoull, magnitude, if_neg (by omega), value_integerText]
    omega
  unfold parseUInt64
  rw [cString_of_visible (visible_integerText _)]
  simp only [starts, integerText_whole, number, UInt64.ofNat_toNat]
  rfl

/-- What the library promises of a double that is a number: its text comes back as it. -/
structure Floating.Prints (floating : Floating Double) (value : Double) : Prop where
  visible : Visible (floating.format value)
  read : floating.strtod (floating.format value) = some (value, [])

variable {floating} in
theorem Floating.Prints.parse {value : Double} (prints : floating.Prints value) :
    floating.parse (floating.format value) = some value := by
  rw [Floating.parse, cString_of_visible prints.visible, prints.read]

section Written

variable {floating} {settings : Settings Double}
  (prints : floating.Prints settings.scanFloatEpsilon)
include prints

/-- Each field can be read from its own line. -/
theorem parse_format : ∀ field ∈ settingsFields floating,
    field.parse (field.format (field.get settings)) = some (field.get settings) := by
  simp only [settingsFields, List.forall_mem_cons]
  and_intros
  all_goals first
    | exact parseBool_formatBool _
    | exact parseInt_integerText _
    | exact parseUInt64_integerText _
    | exact prints.parse
    | exact fun _ inside => absurd inside List.not_mem_nil

theorem visible_line : ∀ field ∈ settingsFields floating, Visible (field.line settings) := by
  have flags (value : Bool) : Visible (formatBool value) := by cases value <;> decide
  have counts (value : UInt64) : Visible (integerText value.toNat) := visible_integerText _
  have joined {key value : Text} (named : Visible key) (written : Visible value) :
      Visible (key ++ '=' :: value) :=
    named.append (List.forall_mem_cons.mpr ⟨by decide, written⟩)
  simp only [settingsFields, List.forall_mem_cons]
  and_intros
  all_goals first
    | exact joined (of_decide_eq_true rfl) (visible_integerText _)
    | exact joined (of_decide_eq_true rfl) (flags _)
    | exact joined (of_decide_eq_true rfl) prints.visible
    | exact joined (of_decide_eq_true rfl) (counts _)
    | exact fun _ inside => absurd inside List.not_mem_nil

end Written

/-- No key is empty or starts a comment. -/
theorem settingsFields_key :
    ∀ field ∈ settingsFields floating, field.key.head?.any (· != '#') = true := by
  simp only [settingsFields, List.forall_mem_cons]
  and_intros
  all_goals exact of_decide_eq_true rfl

theorem not_passedOver_line (settings : Settings Double) {field : Slot (Settings Double)}
    (listed : field ∈ settingsFields floating) : passedOver (field.line settings) = false := by
  have starts := settingsFields_key floating field listed
  rw [Slot.line, passedOver]
  cases key : field.key with
  | nil => simp [key] at starts
  | cons first rest => simpa [key] using starts

theorem stripCarriageReturn_of_visible {line : Text} (visible : Visible line) :
    stripCarriageReturn line = line := by
  rw [stripCarriageReturn, if_neg]
  intro last
  exact visible.not_mem (by decide) (List.mem_of_getLast? (beq_iff_eq.mp last))

section Fold

variable (fields : List (Slot (Settings Double)))

/-- The lines that are looked at, as they are then. -/
def lookedAt (lines : List Text) : List Text :=
  (lines.map stripCarriageReturn).filter fun line => !passedOver line

theorem readLine_eq (state : Settings Double × Nat) (line : Text) :
    readLine fields state line =
      if passedOver (stripCarriageReturn line) then state
      else (KeyedFields.readLine fields state.1 (stripCarriageReturn line),
        state.2 + (useless fields (stripCarriageReturn line)).toNat) := by
  unfold readLine KeyedFields.readLine
  by_cases passed : passedOver (stripCarriageReturn line) = true
  · simp only [if_pos passed]
  · simp only [if_neg passed]
    cases split : splitLine (stripCarriageReturn line) with
    | none =>
        have none_ : useless fields (stripCarriageReturn line) = true :=
          useless_iff.mpr fun field _ => by rw [Slot.value, split]
        rw [none_]
        rfl
    | some parts =>
        obtain ⟨key, text⟩ := parts
        have taken := @isNone_assign _ fields _ _ _ split state.1
        cases assigned : assign key text fields state.1 with
        | none =>
            rw [assigned] at taken
            simp only [assigned, ← taken]
            rfl
        | some settings =>
            rw [assigned] at taken
            simp only [assigned, ← taken]
            rfl

/-- The lines set the fields, and each that is no use is counted. -/
theorem foldl_readLine (lines : List Text) (settings : Settings Double) (skipped : Nat) :
    lines.foldl (readLine fields) (settings, skipped) =
      ((lookedAt lines).foldl (KeyedFields.readLine fields) settings,
        skipped + (lookedAt lines).countP (useless fields)) := by
  induction lines generalizing settings skipped with
  | nil => rfl
  | cons line rest ih =>
      rw [List.foldl_cons, readLine_eq]
      by_cases passed : passedOver (stripCarriageReturn line) = true
      · have shorter : lookedAt (line :: rest) = lookedAt rest := by
          simp [lookedAt, passed]
        rw [if_pos passed, shorter]
        exact ih settings skipped
      · have longer : lookedAt (line :: rest) = stripCarriageReturn line :: lookedAt rest := by
          simp [lookedAt, passed]
        rw [if_neg passed, longer, ih, List.foldl_cons, List.countP_cons]
        cases useless fields (stripCarriageReturn line) <;> simp [Nat.add_assoc, Nat.add_comm]

end Fold

/-- The lines of a file that are looked at. A file that is not a settings file has none. -/
def settingsLines : Option Text → List Text
  | none => []
  | some bytes =>
      match pieces '\n' (readAsText bytes) with
      | [] => []
      | header :: lines =>
          if stripCarriageReturn (stripBom header) = settingsHeader then lookedAt lines else []

theorem loadSettings_eq (file : Option Text) :
    (loadSettings floating file).settings =
        (settingsLines file).foldl (KeyedFields.readLine (settingsFields floating))
          (.initial floating) ∧
      (loadSettings floating file).skipped =
        (settingsLines file).countP (useless (settingsFields floating)) := by
  unfold loadSettings settingsLines
  cases file with
  | none => exact ⟨rfl, rfl⟩
  | some bytes =>
      cases read : pieces '\n' (readAsText bytes) with
      | nil =>
          simp only [read]
          exact ⟨rfl, rfl⟩
      | cons header lines =>
          by_cases named : stripCarriageReturn (stripBom header) = settingsHeader
          · simp only [read, if_pos named, foldl_readLine, Nat.zero_add, and_self]
          · simp only [read, if_neg named]
            exact ⟨rfl, rfl⟩

/-- Whatever is in the file, a setting is what the last line says that can be read as it, or its
default, and every other line that is looked at is counted. -/
theorem loadSettings_fields (file : Option Text) :
    (∀ field ∈ settingsFields floating,
      field.get (loadSettings floating file).settings =
        (((settingsLines file).filterMap field.value).getLast?).getD
          (field.get (.initial floating))) ∧
      (loadSettings floating file).skipped =
        (settingsLines file).countP (useless (settingsFields floating)) := by
  obtain ⟨settings, skipped⟩ := loadSettings_eq floating file
  refine ⟨fun field listed => ?_, skipped⟩
  rw [settings]
  exact get_readLines (complete_settingsFields floating) listed _ _

section RoundTrip

variable {floating} {settings : Settings Double}
  (prints : floating.Prints settings.scanFloatEpsilon)
include prints

/-- The lines of a file that is written. -/
theorem settingsLines_text :
    settingsLines (some (OpenMode.text.encode (settingsText floating settings))) =
      (settingsFields floating).map fun field => field.line settings := by
  have visible : ∀ line ∈ settingsHeader :: (settingsFields floating).map
      (fun field => field.line settings), Visible line := by
    rw [List.forall_mem_cons, List.forall_mem_map]
    exact ⟨by decide, visible_line prints⟩
  have plain : '\x1A' ∉ settingsText floating settings := by
    intro inside
    obtain ⟨line, listed, within⟩ := List.mem_flatMap.mp inside
    rcases List.mem_append.mp within with own | feed
    · exact (visible line listed).not_mem (by decide) own
    · exact absurd (List.mem_singleton.mp feed) (by decide)
  have lines : pieces '\n' (settingsText floating settings) =
      settingsHeader :: (settingsFields floating).map fun field => field.line settings :=
    pieces_lines fun line listed => (visible line listed).not_mem (by decide)
  have named : stripCarriageReturn (stripBom settingsHeader) = settingsHeader := by decide
  have kept : lookedAt ((settingsFields floating).map fun field => field.line settings) =
      (settingsFields floating).map fun field => field.line settings := by
    rw [lookedAt, List.map_map, List.filter_eq_self.mpr]
    · refine List.map_congr_left fun field listed => ?_
      exact stripCarriageReturn_of_visible (visible_line prints field listed)
    · intro line listed
      obtain ⟨field, inFields, rfl⟩ := List.mem_map.mp listed
      rw [Function.comp, stripCarriageReturn_of_visible (visible_line prints field inFields),
        not_passedOver_line floating settings inFields]
      rfl
  simp only [settingsLines, readAsText_encode plain, lines, if_pos named, kept]

/-- What is saved is loaded. -/
theorem loadSettings_text :
    (loadSettings floating
      (some (OpenMode.text.encode (settingsText floating settings)))).settings = settings := by
  rw [(loadSettings_eq floating _).1, settingsLines_text prints]
  exact readLines_lines (complete_settingsFields floating) (parse_format prints) _

end RoundTrip

end PointerLab.SettingsFile
