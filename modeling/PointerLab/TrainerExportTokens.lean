import PointerLab.TrainerExportData
import PointerLab.ValueRoundTrip

set_option autoImplicit false

/- The lines of the data part and the tokens that each of them is. -/
namespace PointerLab.TrainerExport

open Domain Digits ProjectStore CppTokens Transducers Transducer

/-! ## No text of a line breaks it -/

theorem not_break_of_letter {c : Char} (letter : isLetter c = true) : c ≠ '\n' := by
  rintro rfl
  exact absurd letter (by decide)

theorem unbroken_letters {text : Text} (letters : ∀ c ∈ text, isLetter c = true) : '\n' ∉ text :=
  fun inside => not_break_of_letter (letters _ inside) rfl

theorem unbroken_append {left right : Text} (first : '\n' ∉ left) (second : '\n' ∉ right) :
    '\n' ∉ left ++ right := fun inside =>
  (List.mem_append.mp inside).elim first second

theorem unbroken_intercalate {separator : Text} {texts : List Text} (between : '\n' ∉ separator)
    (each : ∀ text ∈ texts, '\n' ∉ text) : '\n' ∉ List.intercalate separator texts := by
  induction texts with
  | nil => exact List.not_mem_nil
  | cons text rest ih =>
      obtain ⟨first, others⟩ := List.forall_mem_cons.mp each
      cases rest with
      | nil =>
          rw [List.intercalate_singleton]
          exact first
      | cons next later =>
          rw [List.intercalate_cons_cons]
          exact unbroken_append (unbroken_append first between) (ih others)

theorem unbroken_escapeForCpp (text : Text) : '\n' ∉ escapeForCpp text := by
  intro inside
  obtain ⟨c, _, written⟩ := List.mem_flatMap.mp inside
  split at written
  · rename_i kept
    rcases List.mem_cons.mp written with slash | same
    · exact absurd slash (by decide)
    · rw [← List.mem_singleton.mp same] at kept
      exact absurd kept (by decide)
  split at written
  · exact absurd written (by decide)
  · rename_i other
    rw [← List.mem_singleton.mp written] at other
    exact absurd rfl other

theorem digit_letters : ∀ digit < 16, isLetter (Nat.digitChar digit) = true ∧
    isLetter (upperDigit digit) = true := by
  decide

theorem letters_decimal (value : Nat) : ∀ c ∈ decimal value, isLetter c = true := by
  intro c inside
  obtain ⟨digit, small, same⟩ := mem_toDigits (by decide) inside
  rw [same]
  exact (digit_letters digit (by omega)).1

theorem letters_upper (value : Nat) :
    ∀ c ∈ (Nat.toDigits 16 value).map Char.toUpper, isLetter c = true := by
  intro c inside
  obtain ⟨digit, small, same⟩ := SymbolTable.toUpper_digit inside
  rw [same]
  exact (digit_letters digit small).2

theorem letters_toHex (value : Nat) : ∀ c ∈ toHex value, isLetter c = true :=
  List.forall_mem_cons.mpr ⟨rfl, List.forall_mem_cons.mpr ⟨rfl, letters_upper value⟩⟩

theorem letters_append {left right : Text} (first : ∀ c ∈ left, isLetter c = true)
    (second : ∀ c ∈ right, isLetter c = true) : ∀ c ∈ left ++ right, isLetter c = true :=
  List.forall_mem_append.mpr ⟨first, second⟩

theorem letters_of_all {text : Text} (all : text.all isLetter = true) :
    ∀ c ∈ text, isLetter c = true := List.all_eq_true.mp all

theorem letters_valueName (index : Nat) : ∀ c ∈ valueName index, isLetter c = true :=
  letters_append (letters_append (letters_of_all (by decide)) (letters_decimal index))
    (letters_of_all (by decide))

theorem letters_offsetsName (index : Nat) : ∀ c ∈ offsetsName index, isLetter c = true :=
  letters_append (letters_append (letters_of_all (by decide)) (letters_decimal index))
    (letters_of_all (by decide))

theorem letters_byteText (byte : UInt8) : ∀ c ∈ byteText byte, isLetter c = true := by
  refine letters_append (letters_append (letters_of_all (by decide)) ?_) (letters_upper _)
  split <;> exact letters_of_all (by decide)

/-- The library writes no line break for a floating-point number. -/
def OneLine (floats : FloatText) : Prop := ∀ type bytes, '\n' ∉ floats.general type bytes

theorem unbroken_formatValue {floats : FloatText} (oneLine : OneLine floats) (api : Conversion)
    (type : ValueType) (bytes : List UInt8) : '\n' ∉ formatValue floats api type bytes := by
  have integers : ∀ value, '\n' ∉ integerText value := by
    intro value
    unfold integerText
    split
    · exact List.not_mem_cons_of_ne_of_not_mem (by decide) (unbroken_letters (letters_decimal _))
    · exact unbroken_letters (letters_decimal _)
  cases type with
  | bytes =>
      refine unbroken_intercalate (by decide) ?_
      intro pair inside
      obtain ⟨byte, _, same⟩ := List.mem_map.mp inside
      rw [← same]
      have small := byte.toNat_lt
      refine unbroken_letters (List.forall_mem_cons.mpr ⟨?_, List.forall_mem_singleton.mpr ?_⟩)
      · exact (digit_letters _ (by omega)).2
      · exact (digit_letters _ (by omega)).2
  | stringAscii =>
      intro inside
      obtain ⟨byte, _, same⟩ := List.mem_map.mp inside
      have small := byte.toNat_lt
      split at same
      · rename_i prints
        simp only [isPrint, Bool.and_eq_true, decide_eq_true_eq, UInt8.le_iff_toNat_le] at prints
        have least : 0x20 ≤ byte.toNat := prints.1
        have number := congrArg Char.toNat same
        rw [Utf.toNat_ofNat (Or.inl (by omega))] at number
        have ten : ('\n' : Char).toNat = 10 := rfl
        omega
      · exact absurd same (by decide)
  | stringUtf16 =>
      intro inside
      obtain ⟨c, _, same⟩ := List.mem_map.mp inside
      split at same
      · exact absurd same (by decide)
      · rename_i large
        rw [same] at large
        exact absurd large (by decide)
  | float | double =>
      simp only [formatValue]
      split
      · exact List.not_mem_nil
      · exact oneLine _ _
  | _ =>
      simp only [formatValue]
      split
      · exact List.not_mem_nil
      · exact integers _

/-! ## What the pieces of a line are read as -/

/-- A literal that was escaped is inside of the quotes. -/
theorem reads_escapeForCpp (text before : Text) :
    lexer.Reads (.literal before) (escapeForCpp text) [] (.literal (before ++ text.map blank)) := by
  induction text generalizing before with
  | nil =>
      rw [List.map_nil, List.append_nil]
      exact .nil _
  | cons c rest ih =>
      have onwards := ih (before ++ [blank c])
      rw [List.append_assoc] at onwards
      have step : lexer.Reads (.literal before) (if c == '\\' || c == '"' then ['\\', c]
          else if c == '\n' || c == '\r' || c == '\t' then [' '] else [c]) []
            (.literal (before ++ [blank c])) := by
        by_cases slash : c = '\\'
        · subst slash
          rfl
        by_cases quote : c = '"'
        · subst quote
          rfl
        by_cases lineFeed : c = '\n'
        · subst lineFeed
          rfl
        by_cases return_ : c = '\r'
        · subst return_
          rfl
        by_cases tab : c = '\t'
        · subst tab
          rfl
        simp [Reads, run, lexer, blank, slash, quote, lineFeed, return_, tab]
      exact step.append onwards

theorem wordToken_decimal (value : Nat) : wordToken (decimal value) = some (.constant value) := by
  have starts : (decimal value).head?.any Char.isDigit = true := by
    cases digits : decimal value with
    | nil => exact absurd digits Nat.toDigits_ne_nil
    | cons first rest =>
        have inside : first ∈ decimal value := digits ▸ List.mem_cons_self
        exact toDigits_decimal value first inside
  unfold wordToken integer
  rw [if_pos starts]
  by_cases zero : (decimal value).head? = some '0'
  · rw [toDigits_first zero]
    rfl
  · have base : CNumbers.tellBase (decimal value) = (10, decimal value) := by
      rcases CNumbers.tellBase_cases (decimal value) with
        ⟨told, _⟩ | ⟨_, first⟩ | ⟨x, c, rest, same, _⟩
      · exact told
      · exact absurd first zero
      · rw [same] at zero
        exact absurd rfl zero
    have all : (decimal value).all (CNumbers.isDigitOf 10) = true :=
      List.all_eq_true.mpr (toDigits_digitOf value)
    rw [base]
    simp only [all, if_true, Option.map_some]
    rw [decimal, number_toDigits (by decide) (by decide)]

theorem wordToken_hex {digits : Text} (some_ : digits ≠ [])
    (hex : ∀ c ∈ digits, isHexDigit c = true) :
    wordToken ('0' :: 'x' :: digits) = some (.constant (number 16 digits)) := by
  cases digits with
  | nil => exact absurd rfl some_
  | cons first rest =>
      have base : CNumbers.tellBase ('0' :: 'x' :: first :: rest) = (16, first :: rest) :=
        if_pos (hex first List.mem_cons_self)
      have all : (first :: rest).all (CNumbers.isDigitOf 16) = true := by
        refine List.all_eq_true.mpr ?_
        intro c inside
        simp only [CNumbers.isDigitOf, hex c inside, digitValue_lt (hex c inside), decide_true,
          Bool.and_self]
      have starts : ('0' :: 'x' :: first :: rest).head?.any Char.isDigit = true := rfl
      unfold wordToken integer
      rw [if_pos starts, base]
      simp only [all, if_true, Option.map_some]

theorem upper_hex (value : Nat) :
    ∀ c ∈ (Nat.toDigits 16 value).map Char.toUpper, isHexDigit c = true := by
  intro c inside
  obtain ⟨digit, small, same⟩ := SymbolTable.toUpper_digit inside
  rw [same]
  exact (upperDigit_facts digit small).2

theorem upper_ne_nil (value : Nat) : (Nat.toDigits 16 value).map Char.toUpper ≠ [] :=
  fun none_ => Nat.toDigits_ne_nil (List.map_eq_nil_iff.mp none_)

theorem wordToken_toHex (value : Nat) : wordToken (toHex value) = some (.constant value) := by
  rw [toHex, wordToken_hex (upper_ne_nil value) (upper_hex value), SymbolTable.number_toUpper]

theorem wordToken_byteText (byte : UInt8) :
    wordToken (byteText byte) = some (.constant byte.toNat) := by
  have zero : ∀ digits, number 16 ('0' :: digits) = number 16 digits := by
    intro digits
    have worth : digitValue '0' = 0 := rfl
    rw [CNumbers.number_cons, worth, Nat.zero_mul, Nat.zero_add]
  unfold byteText
  split
  · have isZero : isHexDigit '0' = true := rfl
    have hex : ∀ c ∈ '0' :: (Nat.toDigits 16 byte.toNat).map Char.toUpper, isHexDigit c = true :=
      List.forall_mem_cons.mpr ⟨isZero, upper_hex byte.toNat⟩
    have token := wordToken_hex (List.cons_ne_nil _ _) hex
    rw [zero, SymbolTable.number_toUpper] at token
    exact token
  · exact wordToken_toHex byte.toNat

/-- Constants, a comma between them. -/
def constantTokens : List Nat → List Token
  | [] => []
  | [value] => [.constant value]
  | value :: rest => .constant value :: .mark .comma :: constantTokens rest

/-- Texts of constants up to the blank behind them. -/
theorem reads_constants {Item : Type} (text : Item → Text) (value : Item → Nat)
    (letters : ∀ item, ∀ c ∈ text item, isLetter c = true)
    (token : ∀ item, wordToken (text item) = some (.constant (value item))) (items : List Item) :
    lexer.Reads .between (List.intercalate ", ".toList (items.map text) ++ [' '])
      (constantTokens (items.map value)) .between := by
  have some_ : ∀ item, text item ≠ [] := by
    intro item none_
    have same := token item
    rw [none_] at same
    cases same
  induction items with
  | nil => rfl
  | cons item rest ih =>
      cases rest with
      | nil =>
          rw [List.map_singleton, List.intercalate_singleton]
          exact reads_token (letters item) (token item) (some_ item) (rfl : isLetter ' ' = _)
            (by decide) rfl (.nil _)
      | cons next later =>
          rw [List.map_cons, List.map_cons, List.intercalate_cons_cons]
          have blank_ : lexer.Reads .between [' '] [] .between := rfl
          have first := reads_token (letters item) (token item) (some_ item)
            (rfl : isLetter ',' = _) (by decide) rfl blank_
          have whole := first.append ih
          simpa [constantTokens] using whole

/-! ## The lines -/

theorem getLast?_append_of_last {left right : Text} {last : Char}
    (ends : right.getLast? = some last) : (left ++ right).getLast? = some last := by
  rw [List.getLast?_append, ends]
  rfl

theorem lexes_commentLine {floats : FloatText} (oneLine : OneLine floats) (api : Conversion)
    (entry : AddressEntry) : Lexes (commentLine floats api entry ++ ['\n']) [] := by
  have typeName : '\n' ∉ valueTypeName entry.type := by cases entry.type <;> decide
  have escaped := unbroken_escapeForCpp
    (if entry.description.isEmpty then "entry".toList else entry.description)
  have value := unbroken_formatValue oneLine api entry.type entry.frozenValue
  have unbroken : '\n' ∉ escapeForCpp (if entry.description.isEmpty then "entry".toList
        else entry.description) ++ " -- ".toList ++
      formatValue floats api entry.type entry.frozenValue ++ " (".toList ++
      valueTypeName entry.type ++ ")".toList :=
    unbroken_append (unbroken_append (unbroken_append (unbroken_append (unbroken_append escaped
      (by decide)) value) (by decide)) typeName) (by decide)
  have opened : lexer.Reads .between "// ".toList [] .comment := by decide
  have last : ")".toList.getLast? = some ')' := by decide
  delta commentLine
  refine Lexes.line ?_ ?_ ?_
  · have whole := unbroken_append (by decide : '\n' ∉ "// ".toList) unbroken
    simpa only [List.append_assoc] using whole
  · rw [getLast?_append_of_last last]
    decide
  · have whole := opened.append (reads_comment unbroken)
    simpa only [List.append_assoc, List.append_nil] using whole

/-- The tokens of an array, the first words of its line given. -/
def arrayTokens (words : List Token) (name : Text) (values : List Nat) : List Token :=
  words ++ [.word name, .mark .leftBracket, .mark .rightBracket, .mark .equals,
    .mark .leftBrace] ++ constantTokens values ++ [.mark .rightBrace, .mark .semicolon]

theorem lexes_array {head name : Text} {words : List Token} {Item : Type} {text : Item → Text}
    {value : Item → Nat} (headReads : lexer.Reads .between head words .between)
    (headUnbroken : '\n' ∉ head) (nameLetters : ∀ c ∈ name, isLetter c = true)
    (nameToken : wordToken name = some (.word name)) (some_ : name ≠ [])
    (letters : ∀ item, ∀ c ∈ text item, isLetter c = true)
    (token : ∀ item, wordToken (text item) = some (.constant (value item))) (items : List Item) :
    Lexes (head ++ name ++ "[] = \x7b ".toList ++ List.intercalate ", ".toList (items.map text) ++
      " \x7d;".toList ++ ['\n']) (arrayTokens words name (items.map value)) := by
  refine Lexes.line ?_ ?_ ?_
  · have each : ∀ part ∈ items.map text, '\n' ∉ part := by
      intro part inside
      obtain ⟨item, _, same⟩ := List.mem_map.mp inside
      exact same ▸ unbroken_letters (letters item)
    exact unbroken_append (unbroken_append (unbroken_append (unbroken_append headUnbroken
      (unbroken_letters nameLetters)) (by decide)) (unbroken_intercalate (by decide) each))
      (by decide)
  · have last : " \x7d;".toList.getLast? = some ';' := by decide
    rw [getLast?_append_of_last last]
    decide
  · have opened : lexer.Reads .between "] = \x7b ".toList
        [.mark .rightBracket, .mark .equals, .mark .leftBrace] .between := by decide
    have named := reads_token nameLetters nameToken some_ (rfl : isLetter '[' = _) (by decide) rfl
      opened
    have closed : lexer.Reads .between "\x7d;\n".toList
        [.mark .rightBrace, .mark .semicolon] .between := by decide
    have whole := headReads.append (named.append
      ((reads_constants text value letters token items).append closed))
    simpa [arrayTokens] using whole

theorem wordToken_valueName (index : Nat) :
    wordToken (valueName index) = some (.word (valueName index)) := rfl

theorem wordToken_offsetsName (index : Nat) :
    wordToken (offsetsName index) = some (.word (offsetsName index)) := rfl

def valueTokens (index : Nat) (entry : AddressEntry) : List Token :=
  arrayTokens [.word "const".toList, .word "unsigned".toList, .word "char".toList]
    (valueName index) (entry.frozenValue.map UInt8.toNat)

theorem lexes_valueLine (index : Nat) (entry : AddressEntry) :
    Lexes (valueLine index entry ++ ['\n']) (valueTokens index entry) := by
  have head : lexer.Reads .between "const unsigned char ".toList
      [.word "const".toList, .word "unsigned".toList, .word "char".toList] .between := by decide
  exact lexes_array head (by decide) (letters_valueName index) (wordToken_valueName index)
    (List.cons_ne_nil _ _) letters_byteText wordToken_byteText entry.frozenValue

def offsetsTokens (index : Nat) (offsets : List Int) : List Token :=
  arrayTokens [.word "const".toList, .word "ptrdiff_t".toList] (offsetsName index)
    (offsets.map toUnsigned)

theorem lexes_offsetsLine (index : Nat) (offsets : List Int) :
    Lexes (offsetsLine index offsets ++ ['\n']) (offsetsTokens index offsets) := by
  have head : lexer.Reads .between "const ptrdiff_t ".toList
      [.word "const".toList, .word "ptrdiff_t".toList] .between := by decide
  exact lexes_array head (by decide) (letters_offsetsName index) (wordToken_offsetsName index)
    (List.cons_ne_nil _ _) (fun offset => letters_toHex (toUnsigned offset))
    (fun offset => wordToken_toHex (toUnsigned offset)) offsets

example : offsetsLine 0 [0x10, 0, 0x2C] =
    "const ptrdiff_t cheat0_offsets[] = \x7b 0x10, 0x0, 0x2C \x7d;".toList := by decide

/-- The tokens of the data of the cheats from an index on. -/
def dataTokens : Nat → List AddressEntry → List Token
  | _, [] => []
  | index, entry :: rest =>
      valueTokens index entry ++
        (if (chainOffsets entry).isEmpty then []
          else offsetsTokens index (chainOffsets entry)) ++ dataTokens (index + 1) rest

theorem lexes_allCheatData {floats : FloatText} (oneLine : OneLine floats) (api : Conversion)
    (index : Nat) (entries : List AddressEntry) :
    Lexes (allCheatData floats api index entries) (dataTokens index entries) := by
  induction entries generalizing index with
  | nil => exact .nil
  | cons entry rest ih =>
      have blankLine : Lexes ['\n'] [] := ⟨by decide, by decide⟩
      have offsets : Lexes (if (chainOffsets entry).isEmpty then []
            else offsetsLine index (chainOffsets entry) ++ ['\n'])
          (if (chainOffsets entry).isEmpty then []
            else offsetsTokens index (chainOffsets entry)) := by
        split
        · exact .nil
        · exact lexes_offsetsLine index _
      have one := (((lexes_commentLine oneLine api entry).append
        (lexes_valueLine index entry)).append offsets).append blankLine
      have whole := one.append (ih (index + 1))
      rw [List.nil_append, List.append_nil] at whole
      exact whole

def moduleToken (api : Conversion) (entry : AddressEntry) : Token :=
  ((rootedIn entry).map fun name => Token.wide ((narrow api name).map blank)).getD
    (.word "nullptr".toList)

def arrayToken (index : Nat) (entry : AddressEntry) : Token :=
  if (chainOffsets entry).isEmpty then .word "nullptr".toList else .word (offsetsName index)

def elementTokens (api : Conversion) (last : Bool) (index : Nat) (entry : AddressEntry) :
    List Token :=
  [.mark .leftBrace, .wide ((shownDescription entry).map blank), .mark .comma,
    .constant (virtualKey entry.hotkey), .mark .comma, moduleToken api entry, .mark .comma,
    .constant (baseOf entry), .mark .comma, arrayToken index entry, .mark .comma,
    .constant (chainOffsets entry).length, .mark .comma, .word (valueName index), .mark .comma,
    .word "sizeof".toList, .mark .leftParen, .word (valueName index), .mark .rightParen,
    .mark .comma, .word "false".toList, .mark .rightBrace] ++
    (if last then [] else [.mark .comma])

section Pieces

variable (api : Conversion) (last : Bool) (index : Nat) (entry : AddressEntry)

/-- A word or a number, and a comma behind it. -/
theorem reads_comma {letters : Text} {token : Token} (all : ∀ c ∈ letters, isLetter c = true)
    (isToken : wordToken letters = some token) (some_ : letters ≠ []) :
    lexer.Reads .between (letters ++ ", ".toList) [token, .mark .comma] .between := by
  have blank_ : lexer.Reads .between [' '] [] .between := by decide
  exact reads_token all isToken some_ (rfl : isLetter ',' = _) (by decide) rfl blank_

theorem reads_keyText : lexer.Reads .between (keyText (virtualKey entry.hotkey) ++ ", ".toList)
    [.constant (virtualKey entry.hotkey), .mark .comma] .between := by
  unfold keyText
  split
  · exact reads_comma (letters_toHex _) (wordToken_toHex _) (List.cons_ne_nil _ _)
  · rename_i none_
    rw [Decidable.not_not.mp none_]
    decide

theorem reads_moduleText : lexer.Reads .between (moduleText api entry ++ ", ".toList)
    [moduleToken api entry, .mark .comma] .between := by
  unfold moduleText moduleToken
  cases rootedIn entry with
  | some name =>
      have opens : lexer.Reads .between "L\"".toList [] (.literal []) := by decide
      have closes : ∀ letters, lexer.Reads (.literal letters) ("\"".toList ++ ", ".toList)
          [.wide letters, .mark .comma] .between := fun _ => rfl
      have whole := opens.append ((reads_escapeForCpp (narrow api name) []).append (closes _))
      simpa only [List.append_assoc, List.nil_append, Option.map_some, Option.getD_some] using whole
  | none =>
      exact (by decide : lexer.Reads .between "nullptr, ".toList
        [.word "nullptr".toList, .mark .comma] .between)

theorem reads_offsetsText : lexer.Reads .between (offsetsText index entry ++ ", ".toList)
    [arrayToken index entry, .mark .comma, .constant (chainOffsets entry).length, .mark .comma]
      .between := by
  unfold offsetsText arrayToken
  split
  · rename_i none_
    rw [List.isEmpty_iff.mp none_]
    decide
  · have name := reads_comma (letters_offsetsName index) (wordToken_offsetsName index)
      (List.cons_ne_nil _ _)
    have count := reads_comma (letters_decimal (chainOffsets entry).length) (wordToken_decimal _)
      Nat.toDigits_ne_nil
    have whole := name.append count
    rw [← List.append_assoc] at whole
    exact whole

theorem reads_elementLine : lexer.Reads .between (elementLine api last index entry ++ ['\n'])
    (elementTokens api last index entry) .between := by
  have opens : lexer.Reads .between "    \x7b L\"".toList [.mark .leftBrace] (.literal []) := by
    decide
  have described : ∀ letters, lexer.Reads (.literal letters) "\", ".toList
      [.wide letters, .mark .comma] .between := fun _ => rfl
  have base := reads_comma (letters_toHex (baseOf entry)) (wordToken_toHex _)
    (List.cons_ne_nil _ _)
  have sizeOf_ : lexer.Reads .between " sizeof(".toList [.word "sizeof".toList, .mark .leftParen]
      .between := by decide
  have value : lexer.Reads .between (valueName index ++ ", sizeof(".toList) _ _ :=
    reads_token (letters_valueName index) (wordToken_valueName index) (List.cons_ne_nil _ _)
      (rfl : isLetter ',' = _) (by decide) rfl sizeOf_
  have false_ : lexer.Reads .between ", false \x7d".toList [.mark .comma, .word "false".toList,
      .mark .rightBrace] .between := by decide
  have measured : lexer.Reads .between (valueName index ++ "), false \x7d".toList) _ _ :=
    reads_token (letters_valueName index) (wordToken_valueName index) (List.cons_ne_nil _ _)
      (rfl : isLetter ')' = _) (by decide) rfl false_
  have comma : lexer.Reads .between (if last then [] else ",".toList)
      (if last then [] else [.mark .comma]) .between := by
    split <;> decide
  have note : lexer.Reads .between ((if (rootedIn entry).isSome then []
      else "  // absolute address: valid only while this run of the game lasts".toList) ++ ['\n'])
      [] .between := by
    split <;> decide
  have whole := opens.append ((reads_escapeForCpp (shownDescription entry) []).append
    ((described _).append ((reads_keyText entry).append ((reads_moduleText api entry).append
      (base.append ((reads_offsetsText index entry).append (value.append
        (measured.append (comma.append note)))))))))
  delta elementLine elementTokens
  simpa only [List.append_assoc, List.append_nil, List.nil_append, List.cons_append] using whole

theorem unbroken_keyText (key : Nat) : '\n' ∉ keyText key := by
  unfold keyText
  split
  · exact unbroken_letters (letters_toHex key)
  · decide

theorem unbroken_moduleText : '\n' ∉ moduleText api entry := by
  unfold moduleText
  split
  · exact unbroken_append (unbroken_append (by decide) (unbroken_escapeForCpp _)) (by decide)
  · decide

theorem unbroken_offsetsText : '\n' ∉ offsetsText index entry := by
  unfold offsetsText
  split
  · decide
  · exact unbroken_append (unbroken_append (unbroken_letters (letters_offsetsName index))
      (by decide)) (unbroken_letters (letters_decimal _))

/-- The end of a line of `g_cheats`. -/
def elementEnd : Text :=
  "), false \x7d".toList ++ (if last then [] else ",".toList) ++
    (if (rootedIn entry).isSome then []
      else "  // absolute address: valid only while this run of the game lasts".toList)

theorem elementEnd_ends : ∃ c, (elementEnd last entry).getLast? = some c ∧ c ≠ '\\' := by
  unfold elementEnd
  split <;> split
  · exact ⟨'}', by decide, by decide⟩
  · exact ⟨'s', getLast?_append_of_last (by decide), by decide⟩
  · exact ⟨',', by decide, by decide⟩
  · exact ⟨'s', getLast?_append_of_last (by decide), by decide⟩

theorem unbroken_elementEnd : '\n' ∉ elementEnd last entry := by
  refine unbroken_append (unbroken_append (by decide) ?_) ?_
  · split <;> decide
  · split <;> decide

theorem lexes_elementLine : Lexes (elementLine api last index entry ++ ['\n'])
    (elementTokens api last index entry) := by
  have comma : '\n' ∉ ", ".toList := by decide
  have head : ∃ line, elementLine api last index entry = line ++ elementEnd last entry ∧
      '\n' ∉ line := by
    refine ⟨"    \x7b L\"".toList ++ escapeForCpp (shownDescription entry) ++ "\", ".toList ++
      keyText (virtualKey entry.hotkey) ++ ", ".toList ++ moduleText api entry ++ ", ".toList ++
      toHex (baseOf entry) ++ ", ".toList ++ offsetsText index entry ++ ", ".toList ++
      valueName index ++ ", sizeof(".toList ++ valueName index, ?_, ?_⟩
    · delta elementLine elementEnd
      simp only [List.append_assoc]
    · have described := unbroken_append (unbroken_append (by decide : '\n' ∉ "    \x7b L\"".toList)
        (unbroken_escapeForCpp (shownDescription entry))) (by decide : '\n' ∉ "\", ".toList)
      have keyed := unbroken_append (unbroken_append described
        (unbroken_keyText (virtualKey entry.hotkey))) comma
      have rooted := unbroken_append (unbroken_append keyed (unbroken_moduleText api entry)) comma
      have based := unbroken_append (unbroken_append rooted
        (unbroken_letters (letters_toHex (baseOf entry)))) comma
      have followed := unbroken_append (unbroken_append based (unbroken_offsetsText index entry))
        comma
      have name := unbroken_letters (letters_valueName index)
      exact unbroken_append (unbroken_append (unbroken_append followed name) (by decide)) name
  obtain ⟨line, same, unbroken⟩ := head
  have reads := reads_elementLine api last index entry
  rw [same] at reads ⊢
  refine Lexes.line (unbroken_append unbroken (unbroken_elementEnd last entry)) ?_ reads
  obtain ⟨c, ends, other⟩ := elementEnd_ends last entry
  rw [getLast?_append_of_last ends]
  exact fun slash => other (Option.some.inj slash)

end Pieces

/-- The tokens of the elements of `g_cheats` from an index on. -/
def elementsTokens (api : Conversion) : Nat → List AddressEntry → List Token
  | _, [] => []
  | index, entry :: rest =>
      elementTokens api rest.isEmpty index entry ++ elementsTokens api (index + 1) rest

theorem lexes_elementLines (api : Conversion) (index : Nat) (entries : List AddressEntry) :
    Lexes (elementLines api index entries) (elementsTokens api index entries) := by
  induction entries generalizing index with
  | nil => exact .nil
  | cons entry rest ih =>
      exact (lexes_elementLine api rest.isEmpty index entry).append (ih (index + 1))

def cheatsTokens (api : Conversion) (entries : List AddressEntry) : List Token :=
  [.word "Cheat".toList, .word "g_cheats".toList, .mark .leftBracket, .mark .rightBracket,
    .mark .equals, .mark .leftBrace] ++ elementsTokens api 0 entries ++
    [.mark .rightBrace, .mark .semicolon]

/-- Every text in the data is inside of its quotes or its comment. -/
theorem tokens_dataPart {floats : FloatText} (oneLine : OneLine floats) (api : Conversion)
    (options : TrainerOptions) :
    tokens (dataPart floats api options) =
      some (dataTokens 0 (cheats options) ++ cheatsTokens api (cheats options)) := by
  have opens : Lexes "Cheat g_cheats[] = \x7b\n".toList
      [.word "Cheat".toList, .word "g_cheats".toList, .mark .leftBracket, .mark .rightBracket,
        .mark .equals, .mark .leftBrace] := ⟨by decide, by decide⟩
  have closes : Lexes "\x7d;\n\n".toList [.mark .rightBrace, .mark .semicolon] :=
    ⟨by decide, by decide⟩
  have whole := (((lexes_allCheatData oneLine api 0 (cheats options)).append opens).append
    (lexes_elementLines api 0 (cheats options))).append closes
  rw [cheatsTokens, ← List.append_assoc, ← List.append_assoc]
  exact whole.tokens

end PointerLab.TrainerExport
