import PointerLab.TrainerExportResolve
import PointerLab.TrainerExportTokens

set_option autoImplicit false

/- The data part read as declarations, and when it says what the address list does. -/
namespace PointerLab.TrainerExport

open Domain ProjectStore CppTokens

/-! ## Declarations -/

/-- An element of `g_cheats`, the arrays by their names. -/
structure Element where
  description : Text
  hotkey : Nat
  moduleName : Option Text
  base : Nat
  offsets : Option Text
  offsetCount : Nat
  value : Text
  valueSize : Text
  enabled : Bool
  deriving DecidableEq

inductive Declaration where
  | values (name : Text) (constants : List Nat)
  | offsets (name : Text) (constants : List Nat)
  | cheats (elements : List Element)
  deriving DecidableEq

/-- The tokens of each statement, up to its semicolon. -/
def statements : List Token → Option (List (List Token))
  | [] => some []
  | .mark .semicolon :: rest => (statements rest).map ([] :: ·)
  | token :: rest =>
      match statements rest with
      | some (first :: later) => some ((token :: first) :: later)
      | _ => none

/-- The constants of a list in braces, from the first on. -/
def constants : List Token → Option (List Nat)
  | [.mark .rightBrace] => some []
  | [.constant value, .mark .rightBrace] => some [value]
  | .constant value :: .mark .comma :: rest => (constants rest).map (value :: ·)
  | _ => none

/-- A wide literal or `nullptr`. -/
def literalOrNull : Token → Option (Option Text)
  | .wide letters => some (some letters)
  | .word letters => if letters = "nullptr".toList then some none else none
  | _ => none

/-- The name of an array or `nullptr`. -/
def nameOrNull : Token → Option (Option Text)
  | .word letters => some (if letters = "nullptr".toList then none else some letters)
  | _ => none

def truthValue (letters : Text) : Option Bool :=
  if letters = "true".toList then some true
  else if letters = "false".toList then some false
  else none

/-- An element in its braces, and what is behind it. -/
def element : List Token → Option (Element × List Token)
  | .mark .leftBrace :: .wide description :: .mark .comma :: .constant hotkey :: .mark .comma ::
      moduleName :: .mark .comma :: .constant base :: .mark .comma :: offsets :: .mark .comma ::
      .constant offsetCount :: .mark .comma :: .word value :: .mark .comma :: .word measure ::
      .mark .leftParen :: .word valueSize :: .mark .rightParen :: .mark .comma :: .word enabled ::
      .mark .rightBrace :: rest =>
      match literalOrNull moduleName, nameOrNull offsets, truthValue enabled with
      | some moduleName, some offsets, some enabled =>
          if measure = "sizeof".toList then
            some ({ description, hotkey, moduleName, base, offsets, offsetCount, value, valueSize,
                    enabled }, rest)
          else none
      | _, _, _ => none
  | _ => none

/-- The elements of a list in braces, from the first on; there are no more than the fuel. -/
def elements : Nat → List Token → Option (List Element)
  | 0, _ => none
  | fuel + 1, tokens =>
      if tokens = [.mark .rightBrace] then some []
      else
        match element tokens with
        | some (first, .mark .comma :: rest) => (elements fuel rest).map (first :: ·)
        | some (first, [.mark .rightBrace]) => some [first]
        | _ => none

/-- A declaration without its semicolon. -/
def declaration (tokens : List Token) : Option Declaration :=
  match tokens with
  | .word first :: .word second :: .word third :: .word name :: .mark .leftBracket ::
      .mark .rightBracket :: .mark .equals :: .mark .leftBrace :: rest =>
      if first = "const".toList ∧ second = "unsigned".toList ∧ third = "char".toList then
        (constants rest).map (.values name)
      else none
  | .word first :: .word second :: .word name :: .mark .leftBracket :: .mark .rightBracket ::
      .mark .equals :: .mark .leftBrace :: rest =>
      if first = "const".toList ∧ second = "ptrdiff_t".toList then
        (constants rest).map (.offsets name)
      else none
  | .word first :: .word name :: .mark .leftBracket :: .mark .rightBracket :: .mark .equals ::
      .mark .leftBrace :: rest =>
      if first = "Cheat".toList ∧ name = "g_cheats".toList then
        (elements tokens.length rest).map .cheats
      else none
  | _ => none

/-- The declarations that tokens are. -/
def declared (read : List Token) : Option (List Declaration) :=
  match statements read with
  | none => none
  | some parts => parts.mapM declaration

/-- The declarations that a text is. -/
def declarations (text : Text) : Option (List Declaration) := (tokens text).bind declared

/-! ## What the data part is read as -/

def offsetArrays (program : List Declaration) : List (Text × List Nat) :=
  program.filterMap fun
    | .offsets name constants => some (name, constants)
    | _ => none

/-- The chains that have an array of their own, under its name. -/
def chainArrays : Nat → List AddressEntry → List (Text × List Int)
  | _, [] => []
  | index, entry :: rest =>
      (if (chainOffsets entry).isEmpty then [] else [(offsetsName index, chainOffsets entry)]) ++
        chainArrays (index + 1) rest

/-- In a trainer of a bitness the constant is a `ptrdiff_t` as it stands, and it is the offset. -/
def Denotes (bitness : Bitness) (constant : Nat) (offset : Int) : Prop :=
  constant < limit bitness / 2 ∧ asPtrdiff bitness constant = offset

/-- The literals of an element are the texts of the entry with their line breaks and tabs blank, and
its base is a `uintptr_t` as it stands. -/
structure Element.Shows (api : Conversion) (bitness : Bitness) (element : Element)
    (entry : AddressEntry) : Prop where
  description : element.description = (shownDescription entry).map blank
  moduleName : element.moduleName = (rootedIn entry).map fun name => (narrow api name).map blank
  base : element.base = baseOf entry
  baseFits : element.base < limit bitness

/-- The data part compiles to what the address list says. -/
structure WellFormed (api : Conversion) (options : TrainerOptions)
    (program : List Declaration) : Prop where
  offsets : List.Forall₂ (fun array chain => array.1 = chain.1 ∧
      List.Forall₂ (Denotes options.bitness) array.2 chain.2)
    (offsetArrays program) (chainArrays 0 (cheats options))
  cheats : ∃ elements, Declaration.cheats elements ∈ program ∧
    List.Forall₂ (Element.Shows api options.bitness) elements (cheats options)
  filled : ∀ elements, Declaration.cheats elements ∈ program → elements ≠ []

/-- Something is frozen, no offset is negative, and all numbers are in the width of the target. -/
structure Narrow (options : TrainerOptions) : Prop where
  frozen : cheats options ≠ []
  bases : ∀ entry ∈ cheats options, baseOf entry < limit options.bitness
  offsets : ∀ entry ∈ cheats options, ∀ offset ∈ chainOffsets entry,
    0 ≤ offset ∧ offset < (limit options.bitness / 2 : Nat)

def valueDeclarations : Nat → List AddressEntry → List Declaration
  | _, [] => []
  | index, entry :: rest =>
      .values (valueName index) (entry.frozenValue.map UInt8.toNat) ::
        (if (chainOffsets entry).isEmpty then []
          else [.offsets (offsetsName index) ((chainOffsets entry).map toUnsigned)]) ++
        valueDeclarations (index + 1) rest

def elementFor (api : Conversion) (index : Nat) (entry : AddressEntry) : Element where
  description := (shownDescription entry).map blank
  hotkey := virtualKey entry.hotkey
  moduleName := (rootedIn entry).map fun name => (narrow api name).map blank
  base := baseOf entry
  offsets := if (chainOffsets entry).isEmpty then none else some (offsetsName index)
  offsetCount := (chainOffsets entry).length
  value := valueName index
  valueSize := valueName index
  enabled := false

def elementsFor (api : Conversion) : Nat → List AddressEntry → List Element
  | _, [] => []
  | index, entry :: rest => elementFor api index entry :: elementsFor api (index + 1) rest

theorem constants_tokens (values : List Nat) :
    constants (constantTokens values ++ [.mark .rightBrace]) = some values := by
  induction values with
  | nil => rfl
  | cons value rest ih =>
      cases rest with
      | nil => rfl
      | cons next later =>
          have step : constants (constantTokens (value :: next :: later) ++ [.mark .rightBrace]) =
              (constants (constantTokens (next :: later) ++ [.mark .rightBrace])).map
                (value :: ·) := by
            rw [constantTokens, List.cons_append, List.cons_append, constants]
            intro none_
            cases later <;> cases none_
          rw [step, ih]
          rfl

/-- A statement up to its semicolon. -/
theorem statements_append {statement : List Token} (whole : Token.mark .semicolon ∉ statement)
    (rest : List Token) :
    statements (statement ++ .mark .semicolon :: rest) =
      (statements rest).map (statement :: ·) := by
  induction statement with
  | nil => rfl
  | cons token later ih =>
      have other : Token.mark .semicolon ≠ token := List.ne_of_not_mem_cons whole
      have onwards := ih (List.not_mem_of_not_mem_cons whole)
      rw [List.cons_append, statements, onwards]
      · cases statements rest <;> rfl
      · exact fun same => other same.symm

theorem declared_append {statement : List Token} {first : Declaration}
    (whole : Token.mark .semicolon ∉ statement) (reads : declaration statement = some first)
    (rest : List Token) :
    declared (statement ++ .mark .semicolon :: rest) = (declared rest).map (first :: ·) := by
  unfold declared
  rw [statements_append whole]
  cases statements rest with
  | none => rfl
  | some parts =>
      simp only [Option.map_some, List.mapM_cons, reads]
      cases parts.mapM declaration <;> rfl

theorem semicolon_notMem_constantTokens (values : List Nat) :
    Token.mark .semicolon ∉ constantTokens values := by
  induction values with
  | nil => exact List.not_mem_nil
  | cons value rest ih =>
      cases rest with
      | nil => exact fun inside => by cases List.mem_singleton.mp inside
      | cons next later =>
          exact List.not_mem_cons_of_ne_of_not_mem nofun
            (List.not_mem_cons_of_ne_of_not_mem nofun ih)

/-- The tokens of an array, its first words given, are one statement. -/
theorem declared_array {words : List Token} {name : Text} {values : List Nat}
    {first : Declaration} (whole : Token.mark .semicolon ∉ words)
    (reads : declaration (words ++ [.word name, .mark .leftBracket, .mark .rightBracket,
      .mark .equals, .mark .leftBrace] ++ constantTokens values ++ [.mark .rightBrace]) =
        some first) (rest : List Token) :
    declared (arrayTokens words name values ++ rest) = (declared rest).map (first :: ·) := by
  have inside : Token.mark .semicolon ∉ words ++ [.word name, .mark .leftBracket,
      .mark .rightBracket, .mark .equals, .mark .leftBrace] ++ constantTokens values ++
        [.mark .rightBrace] := by
    simp [whole, semicolon_notMem_constantTokens]
  have one := declared_append inside reads rest
  simpa only [arrayTokens, List.append_assoc, List.cons_append, List.nil_append] using one

theorem declared_values (index : Nat) (entry : AddressEntry) (rest : List Token) :
    declared (valueTokens index entry ++ rest) = (declared rest).map
      (.values (valueName index) (entry.frozenValue.map UInt8.toNat) :: ·) := by
  refine declared_array (by decide) ?_ rest
  have read := constants_tokens (entry.frozenValue.map UInt8.toNat)
  simp [declaration, read]

theorem declared_offsets (index : Nat) (offsets : List Int) (rest : List Token) :
    declared (offsetsTokens index offsets ++ rest) = (declared rest).map
      (.offsets (offsetsName index) (offsets.map toUnsigned) :: ·) := by
  refine declared_array (by decide) ?_ rest
  have read := constants_tokens (offsets.map toUnsigned)
  simp [declaration, read]

theorem declared_data (index : Nat) (entries : List AddressEntry) (rest : List Token) :
    declared (dataTokens index entries ++ rest) =
      (declared rest).map (valueDeclarations index entries ++ ·) := by
  induction entries generalizing index with
  | nil => cases same : declared rest <;> simp [dataTokens, valueDeclarations, same]
  | cons entry later ih =>
      rw [dataTokens, List.append_assoc, List.append_assoc, declared_values]
      split
      · rename_i none_
        rw [List.nil_append, ih]
        cases declared rest <;> simp [valueDeclarations, none_]
      · rename_i some_
        rw [declared_offsets, ih]
        cases declared rest <;> simp [valueDeclarations, some_]

/-! ## The elements of `g_cheats` -/

theorem element_tokens (api : Conversion) (last : Bool) (index : Nat) (entry : AddressEntry)
    (rest : List Token) :
    element (elementTokens api last index entry ++ rest) =
      some (elementFor api index entry, (if last then [] else [.mark .comma]) ++ rest) := by
  have rooted : literalOrNull (moduleToken api entry) =
      some ((rootedIn entry).map fun name => (narrow api name).map blank) := by
    unfold moduleToken
    cases rootedIn entry <;> rfl
  have array : nameOrNull (arrayToken index entry) =
      some (if (chainOffsets entry).isEmpty then none else some (offsetsName index)) := by
    unfold arrayToken
    split <;> rfl
  have enabled : truthValue "false".toList = some false := by decide
  rw [elementTokens, List.append_assoc]
  simp only [List.cons_append, List.nil_append, element, rooted, array, enabled, if_true]
  rfl

theorem elements_tokens (api : Conversion) (index : Nat) (entries : List AddressEntry)
    {fuel : Nat} (enough : entries.length < fuel) :
    elements fuel (elementsTokens api index entries ++ [.mark .rightBrace]) =
      some (elementsFor api index entries) := by
  induction entries generalizing index fuel with
  | nil =>
      cases fuel with
      | zero => exact absurd enough (Nat.not_lt_zero _)
      | succ fuel => rfl
  | cons entry rest ih =>
      cases fuel with
      | zero => exact absurd enough (Nat.not_lt_zero _)
      | succ fuel =>
          have more : elementsTokens api index (entry :: rest) ++ [.mark .rightBrace] ≠
              [.mark .rightBrace] := by
            intro same
            cases same
          have first := element_tokens api rest.isEmpty index entry
            (elementsTokens api (index + 1) rest ++ [.mark .rightBrace])
          have onwards := ih (index + 1) (Nat.lt_of_succ_lt_succ enough)
          rw [elements, if_neg more, elementsTokens, List.append_assoc, first]
          cases rest with
          | nil => rfl
          | cons next later =>
              simp only [List.isEmpty_cons, Bool.false_eq_true, if_false, List.cons_append,
                List.nil_append, onwards]
              rfl

theorem semicolon_notMem_elementsTokens (api : Conversion) (index : Nat)
    (entries : List AddressEntry) : Token.mark .semicolon ∉ elementsTokens api index entries := by
  induction entries generalizing index with
  | nil => exact List.not_mem_nil
  | cons entry rest ih =>
      have one : Token.mark .semicolon ∉ elementTokens api rest.isEmpty index entry := by
        unfold elementTokens moduleToken arrayToken
        cases rootedIn entry <;> split <;> split <;> simp
      rw [elementsTokens, List.mem_append, not_or]
      exact ⟨one, ih (index + 1)⟩

theorem length_le_elementsTokens (api : Conversion) (index : Nat) (entries : List AddressEntry) :
    entries.length ≤ (elementsTokens api index entries).length := by
  induction entries generalizing index with
  | nil => exact Nat.zero_le _
  | cons entry rest ih =>
      have later := ih (index + 1)
      rw [elementsTokens, List.length_append, elementTokens, List.length_append, List.length_cons]
      simp only [List.length_cons]
      omega

theorem declared_cheats (api : Conversion) (entries : List AddressEntry) :
    declared (cheatsTokens api entries) = some [.cheats (elementsFor api 0 entries)] := by
  have inside : Token.mark .semicolon ∉ [.word "Cheat".toList, .word "g_cheats".toList,
      .mark .leftBracket, .mark .rightBracket, .mark .equals, .mark .leftBrace] ++
        elementsTokens api 0 entries ++ [.mark .rightBrace] := by
    simp [semicolon_notMem_elementsTokens]
  have reads : declaration ([.word "Cheat".toList, .word "g_cheats".toList,
      .mark .leftBracket, .mark .rightBracket, .mark .equals, .mark .leftBrace] ++
        elementsTokens api 0 entries ++ [.mark .rightBrace]) =
          some (.cheats (elementsFor api 0 entries)) := by
    have few := length_le_elementsTokens api 0 entries
    have read := @elements_tokens api 0 entries ((elementsTokens api 0 entries).length + 7)
      (by omega)
    simp [declaration, read]
  have one := declared_append inside reads []
  rw [List.append_assoc] at one
  exact one

/-! ## When it says what the address list does -/

theorem declarations_dataPart {floats : FloatText} (oneLine : OneLine floats) (api : Conversion)
    (options : TrainerOptions) :
    declarations (dataPart floats api options) =
      some (valueDeclarations 0 (cheats options) ++
        [.cheats (elementsFor api 0 (cheats options))]) := by
  unfold declarations
  rw [tokens_dataPart oneLine, Option.bind_some, declared_data, declared_cheats]
  rfl

theorem offsetArrays_values (index : Nat) (entries : List AddressEntry) (elements : List Element) :
    offsetArrays (valueDeclarations index entries ++ [.cheats elements]) =
      (chainArrays index entries).map fun chain => (chain.1, chain.2.map toUnsigned) := by
  induction entries generalizing index with
  | nil => rfl
  | cons entry rest ih =>
      have later := ih (index + 1)
      unfold offsetArrays at later ⊢
      rw [valueDeclarations, chainArrays]
      split
      · exact later
      · rw [List.map_append, ← later]
        rfl

theorem mem_values {index : Nat} {entries : List AddressEntry} {elements : List Element}
    (inside : Declaration.cheats elements ∈ valueDeclarations index entries) : False := by
  induction entries generalizing index with
  | nil => cases inside
  | cons entry rest ih =>
      rw [valueDeclarations] at inside
      rcases List.mem_append.mp inside with here | later
      · cases here with
        | tail _ offsets =>
            split at offsets
            · cases offsets
            · cases List.mem_singleton.mp offsets
      · exact ih later

theorem denotes_iff (bitness : Bitness) (offset : Int) :
    Denotes bitness (toUnsigned offset) offset ↔
      0 ≤ offset ∧ offset < (limit bitness / 2 : Nat) := by
  unfold Denotes asPtrdiff toUnsigned
  simp only
  constructor
  · intro denotes
    obtain ⟨small, same⟩ := denotes
    split at same <;> cases bitness <;> simp only [limit, addressSpace] at * <;> omega
  · intro within
    obtain ⟨positive, small⟩ := within
    refine ⟨?_, ?_⟩
    · cases bitness <;> simp only [limit, addressSpace] at * <;> omega
    · split <;> cases bitness <;> simp only [limit, addressSpace] at * <;> omega

theorem forall_chainArrays {holds : Int → Prop} (index : Nat) (entries : List AddressEntry) :
    (∀ chain ∈ chainArrays index entries, ∀ offset ∈ chain.2, holds offset) ↔
      ∀ entry ∈ entries, ∀ offset ∈ chainOffsets entry, holds offset := by
  induction entries generalizing index with
  | nil => exact ⟨fun _ _ => nofun, fun _ _ => nofun⟩
  | cons entry rest ih =>
      rw [chainArrays, List.forall_mem_append, List.forall_mem_cons, ih]
      refine and_congr_left fun _ => ?_
      split
      · rename_i none_
        rw [List.isEmpty_iff.mp none_]
        exact ⟨fun _ _ => nofun, fun _ _ => nofun⟩
      · exact List.forall_mem_singleton

theorem shows_iff (api : Conversion) (bitness : Bitness) (index : Nat)
    (entries : List AddressEntry) :
    List.Forall₂ (Element.Shows api bitness) (elementsFor api index entries) entries ↔
      ∀ entry ∈ entries, baseOf entry < limit bitness := by
  induction entries generalizing index with
  | nil => exact ⟨fun _ _ => nofun, fun _ => .nil⟩
  | cons entry rest ih =>
      rw [elementsFor, List.forall₂_cons, List.forall_mem_cons, ih]
      refine and_congr_left fun _ => ?_
      exact ⟨fun shows => shows.baseFits, fun fits => ⟨rfl, rfl, rfl, fits⟩⟩

theorem wellFormed_iff (api : Conversion) (options : TrainerOptions) :
    WellFormed api options (valueDeclarations 0 (cheats options) ++
      [.cheats (elementsFor api 0 (cheats options))]) ↔ Narrow options := by
  have only : ∀ elements, Declaration.cheats elements ∈ valueDeclarations 0 (cheats options) ++
      [.cheats (elementsFor api 0 (cheats options))] ↔
        elements = elementsFor api 0 (cheats options) := by
    intro elements
    rw [List.mem_append, List.mem_singleton, Declaration.cheats.injEq]
    exact ⟨fun both => both.resolve_left mem_values, Or.inr⟩
  have offsets : List.Forall₂ (fun array chain => array.1 = chain.1 ∧
      List.Forall₂ (Denotes options.bitness) array.2 chain.2)
        (offsetArrays (valueDeclarations 0 (cheats options) ++
          [.cheats (elementsFor api 0 (cheats options))])) (chainArrays 0 (cheats options)) ↔
      ∀ entry ∈ cheats options, ∀ offset ∈ chainOffsets entry,
        0 ≤ offset ∧ offset < (limit options.bitness / 2 : Nat) := by
    rw [offsetArrays_values, List.forall₂_map_left_iff, List.forall₂_same, ← forall_chainArrays 0]
    refine forall₂_congr fun chain _ => ?_
    rw [List.forall₂_map_left_iff, List.forall₂_same]
    simp only [true_and, denotes_iff]
  have filled : elementsFor api 0 (cheats options) ≠ [] ↔ cheats options ≠ [] := by
    cases cheats options with
    | nil => exact iff_of_false (fun some_ => some_ rfl) (fun some_ => some_ rfl)
    | cons entry rest => exact iff_of_true nofun nofun
  constructor
  · intro wellFormed
    obtain ⟨elements, declared, shown⟩ := wellFormed.cheats
    rw [(only elements).mp declared, shows_iff] at shown
    exact ⟨filled.mp (wellFormed.filled _ ((only _).mpr rfl)), shown,
      offsets.mp wellFormed.offsets⟩
  · intro narrow_
    refine ⟨offsets.mpr narrow_.offsets, ⟨_, (only _).mpr rfl, ?_⟩, ?_⟩
    · exact (shows_iff api options.bitness 0 _).mpr narrow_.bases
    · intro elements declared
      rw [(only elements).mp declared]
      exact filled.mpr narrow_.frozen

theorem narrow_of_wellFormed {floats : FloatText} (oneLine : OneLine floats) {api : Conversion}
    {options : TrainerOptions}
    (compiles : ∃ program, declarations (dataPart floats api options) = some program ∧
      WellFormed api options program) : Narrow options := by
  obtain ⟨program, same, wellFormed⟩ := compiles
  rw [declarations_dataPart oneLine] at same
  rw [← Option.some.inj same] at wellFormed
  exact (wellFormed_iff api options).mp wellFormed

/-- The generated data compiles to what the address list says exactly when something is frozen and
all its numbers are in the width of the target. -/
theorem dataPart_wellFormed_iff {floats : FloatText} (oneLine : OneLine floats)
    (api : Conversion) (options : TrainerOptions) :
    (∃ program, declarations (dataPart floats api options) = some program ∧
      WellFormed api options program) ↔ Narrow options := by
  constructor
  · exact narrow_of_wellFormed oneLine
  · exact fun narrow_ =>
      ⟨_, declarations_dataPart oneLine api options, (wellFormed_iff api options).mpr narrow_⟩

/-- A C library of which no number is asked. -/
def noFloats : FloatText where
  stof _ := none
  stod _ := none
  general _ _ := []

def ammo : AddressEntry where
  address := 0x140001234
  type := .int32
  frozenValue := [0x63, 0, 0, 0]
  description := "He said \"hi\" \\ then\nleft".toList
  hotkey := "F1".toList
  chain := some { moduleName := gameExe, moduleOffset := 0x1F2C40, offsets := [0x10, 0, 0x2C] }

theorem dataPart_wellFormed_ammo :
    ∃ program, declarations (dataPart noFloats asciiConversion { entries := [ammo] }) =
        some program ∧ WellFormed asciiConversion { entries := [ammo] } program :=
  (dataPart_wellFormed_iff (fun _ _ => List.not_mem_nil) asciiConversion { entries := [ammo] }).mpr
    ⟨by decide, by decide, by decide⟩

def behind : AddressEntry :=
  { ammo with chain := some { moduleName := gameExe, moduleOffset := 0x1000, offsets := [-8] } }

/-- A negative offset, an address past the width of the target, and a list with nothing frozen. -/
theorem dataPart_malformed :
    (¬ ∃ program, declarations (dataPart noFloats asciiConversion { entries := [behind] }) =
        some program ∧ WellFormed asciiConversion { entries := [behind] } program) ∧
    (¬ ∃ program, declarations (dataPart noFloats asciiConversion
          { bitness := .x86, entries := [{ ammo with chain := none }] }) = some program ∧
        WellFormed asciiConversion
          { bitness := .x86, entries := [{ ammo with chain := none }] } program) ∧
    ¬ ∃ program, declarations (dataPart noFloats asciiConversion {}) = some program ∧
        WellFormed asciiConversion {} program := by
  have oneLine : OneLine noFloats := fun _ _ => List.not_mem_nil
  refine ⟨?_, ?_, ?_⟩
  · intro compiles
    have offsets := (narrow_of_wellFormed oneLine compiles).offsets
    exact absurd (offsets behind (by decide) (-8) (by decide)) (by decide)
  · intro compiles
    have bases := (narrow_of_wellFormed oneLine compiles).bases
    exact absurd (bases { ammo with chain := none } (by decide)) (by decide)
  · intro compiles
    exact (narrow_of_wellFormed oneLine compiles).frozen rfl

end PointerLab.TrainerExport
