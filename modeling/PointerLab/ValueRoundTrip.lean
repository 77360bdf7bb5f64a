import PointerLab.PatternTokens
import PointerLab.ProjectStoreText
import PointerLab.ScanValues

set_option autoImplicit false

/- Which values come back from their own text, and what the edit boxes of an address list row,
which are filled with that text, make of a value. -/
namespace PointerLab.Domain

open CNumbers Digits MachineIntegers MemoryScanner AutoAssembler Utf
open ProjectStore (Conversion widen byteOfDigits_upperDigit upperDigit_facts)

/-- The byte strings that a value of the type can have. -/
def IsValue (type : ValueType) (bytes : List UInt8) : Prop :=
  if isIntegerType type then bytes.length = valueTypeSize type else bytes ≠ []

/-- The text of the value shows all of it. -/
def Shown (type : ValueType) (bytes : List UInt8) : Prop :=
  match type with
  | .stringAscii => ∀ byte ∈ bytes, isPrint byte = true
  | .stringUtf16 =>
      bytes.length % 2 = 0 ∧ wellFormed (wideOfBytes bytes) = true ∧
        ∀ unit ∈ wideOfBytes bytes, 0x20 ≤ unit.toNat
  | _ => True

/-- `copyText` into a box of 128 characters, and the text that is then read from it. -/
def boxed (text : Text) : Text := (text.take 127).takeWhile (· != '\x00')

variable (floats : FloatText) (api : Conversion)

/-- The text of the value is read as the value. -/
def RoundTrips (type : ValueType) (bytes : List UInt8) : Prop :=
  (parseScanValue floats api type (formatValue floats api type bytes)).map (·.bytes) = some bytes

/-- The value that a row has when its box has been filled from `filled` and the text left as it
is. A text that is refused changes nothing. -/
def rewritten (type : ValueType) (filled bytes : List UInt8) : List UInt8 :=
  match parseScanValue floats api type (boxed (formatValue floats api type filled)) with
  | none => bytes
  | some value => value.bytes

/-- Edit and Apply: the box is filled from the value of the row. -/
def edited (type : ValueType) (bytes : List UInt8) : List UInt8 :=
  rewritten floats api type bytes bytes

/-- Write: the box is filled from the cell "Current", for which as many bytes are read as the type
is wide, and one where it has no width. -/
def written (type : ValueType) (bytes : List UInt8) : List UInt8 :=
  rewritten floats api type (bytes.take (max 1 (valueTypeSize type))) bytes

/-- What Edit and Apply leave as it is. A byte pattern that is too long for the box is cut inside a
byte, and refused as a text without characters is. -/
def EditKeeps (type : ValueType) (bytes : List UInt8) : Prop :=
  match type with
  | .stringAscii => Shown .stringAscii bytes ∧ bytes.length < 128
  | .stringUtf16 => Shown .stringUtf16 bytes ∨ (wideOfBytes bytes).takeWhile (· != 0) = []
  | _ => True

/-- What Write leaves as it is. One byte of UTF-16 has no text, which is refused. -/
def WriteKeeps (type : ValueType) (bytes : List UInt8) : Prop :=
  match type with
  | .bytes => bytes.length = 1
  | .stringAscii => bytes.length = 1 ∧ Shown .stringAscii bytes
  | _ => True

/-- What is documented of the conversions with `CP_UTF8` and no flags: a text ends at its first
zero, a surrogate without its other half becomes U+FFFD, and UTF-8 is read as what it encodes. -/
structure Documented (api : Conversion) : Prop where
  wideCharToMultiByte : ∀ text, api.wideCharToMultiByte text =
    bytesText (encode8 (decode16 (text.takeWhile (· != 0))))
  multiByteToWideChar : ∀ characters, (∀ c ∈ characters, c ≠ '\x00') →
    api.multiByteToWideChar (bytesText (encode8 characters)) = encode16 characters

variable {floats} {api} {type : ValueType} {bytes : List UInt8}

section Integers

theorem toDigits_first {value : Nat} (zero : (Nat.toDigits 10 value).head? = some '0') :
    value = 0 := by
  induction value using Nat.strongRecOn with
  | ind value ih =>
      rw [Nat.toDigits_eq_if (by decide)] at zero
      split at zero
      · rename_i small
        have digit : Nat.digitChar value = '0' := Option.some.inj zero
        have worth := (digitChar_facts value (by omega)).1
        rw [digit] at worth
        exact worth.symm
      · rename_i large
        have nonempty : Nat.toDigits 10 (value / 10) ≠ [] := Nat.toDigits_ne_nil
        rw [List.head?_append_of_ne_nil _ nonempty] at zero
        have quotient := ih (value / 10) (Nat.div_lt_self (by omega) (by decide)) zero
        omega

theorem toDigits_digitOf (value : Nat) : ∀ c ∈ Nat.toDigits 10 value, isDigitOf 10 c = true := by
  intro c inside
  obtain ⟨digit, small, rfl⟩ := mem_toDigits (by decide) inside
  obtain ⟨worth, hex⟩ := digitChar_facts digit (by omega)
  simp only [isDigitOf, hex, worth, small, decide_true, Bool.and_self]

theorem toDigits_hexDigit (value : Nat) : ∀ c ∈ Nat.toDigits 10 value, isHexDigit c = true :=
  fun c inside => (Bool.and_eq_true _ _ ▸ toDigits_digitOf value c inside).1

theorem sign_digits {text : Text} (digits : ∀ c ∈ text, isDigitOf 10 c = true) :
    sign text = (false, text) := by
  unfold sign
  split
  · exact absurd (digits '-' List.mem_cons_self) (by decide)
  · exact absurd (digits '+' List.mem_cons_self) (by decide)
  · rfl

theorem digitsOf_all {text : Text} (digits : ∀ c ∈ text, isDigitOf 10 c = true)
    (negative : Bool) : digitsOf negative 10 text = ⟨negative, 10, text, []⟩ := by
  unfold digitsOf
  rw [List.takeWhile_eq_self_iff.mpr digits, List.dropWhile_eq_nil_iff.mpr digits]

theorem digit_not_space {c : Char} (digit : isDigitOf 10 c = true) : isSpace c = false := by
  unfold isDigitOf at digit
  exact hex_not_space (Bool.and_eq_true _ _ ▸ digit).1

/-- The text of an integer is read as its digits. -/
theorem decimal_integerText (value : Int) :
    decimal isSpace (integerText value) =
      ⟨value < 0, 10, Nat.toDigits 10 value.natAbs, []⟩ := by
  have digits := toDigits_digitOf value.natAbs
  unfold decimal integerText
  by_cases negative : value < 0
  · have minus : isSpace '-' = false := by decide
    rw [if_pos negative, List.dropWhile_cons_of_neg (by rw [minus]; decide),
      decide_eq_true negative]
    exact digitsOf_all digits true
  · have number : value.toNat = value.natAbs := by omega
    have starts : (Nat.toDigits 10 value.natAbs).dropWhile isSpace =
        Nat.toDigits 10 value.natAbs := by
      apply dropWhile_eq_self
      intro c first
      exact digit_not_space (digits c (List.mem_of_mem_head? first))
    rw [if_neg negative, number, starts, sign_digits digits, decide_eq_false negative]
    exact digitsOf_all digits false

theorem pack_integerValue (length : bytes.length = valueTypeSize type) :
    pack type (integerValue type bytes) = bytes := by
  apply littleEndian_injective ((pack_length _).trans length.symm)
  have residue := integerValue_modEq length
  have below := littleEndian_lt_bits length
  have whole := @littleEndian_pack type (integerValue type bytes)
  have same : integerValue type bytes % 2 ^ (intType type).bits =
      (littleEndian bytes : Int) % 2 ^ (intType type).bits := residue
  rw [same] at whole
  have natural : littleEndian (pack type (integerValue type bytes)) =
      littleEndian bytes % 2 ^ (intType type).bits := by
    exact_mod_cast whole
  rw [natural, Nat.mod_eq_of_lt below]

theorem formatValue_integer (integer : isIntegerType type = true)
    (length : bytes.length = valueTypeSize type) :
    formatValue floats api type bytes = integerText (integerValue type bytes) := by
  have enough : ¬ bytes.length < valueTypeSize type := by omega
  have all : bytes.take (valueTypeSize type) = bytes := by rw [← length, List.take_length]
  have text : (if bytes.length < valueTypeSize type then []
      else integerText (integerValue type (bytes.take (valueTypeSize type)))) =
      integerText (integerValue type bytes) := by
    rw [if_neg enough, all]
  cases type <;> first | contradiction | exact text

theorem roundTrips_integer (integer : isIntegerType type = true)
    (length : bytes.length = valueTypeSize type) : RoundTrips floats api type bytes := by
  have holds := integerValue_holds integer length
  have numeral := decimal_integerText (integerValue type bytes)
  have value : (decimal isSpace (integerText (integerValue type bytes))).value =
      integerValue type bytes := by
    have magnitude : number 10 (Nat.toDigits 10 (integerValue type bytes).natAbs) =
        (integerValue type bytes).natAbs := number_toDigits (by decide) (by decide) _
    rw [numeral]
    unfold Numeral.value Numeral.magnitude
    simp only [magnitude, decide_eq_true_eq]
    split <;> omega
  have decided : Decided type (integerText (integerValue type bytes)) := by
    refine Or.inr (Or.inr ⟨by rw [numeral]; rfl, by rw [value]; exact holds, fun _ zero => ?_⟩)
    rw [numeral] at zero
    have none_ := toDigits_first zero
    rw [value]
    omega
  have read := (readsDecimal_iff floats api type _ integer).mpr decided
  have some_ : (decimal isSpace (integerText (integerValue type bytes))).digits ≠ [] := by
    rw [numeral]
    exact Nat.toDigits_ne_nil
  have blank : (decimal isSpace (integerText (integerValue type bytes))).rest.all isSpace =
      true := by
    rw [numeral]
    rfl
  unfold ReadsDecimal at read
  rw [wholeDecimal_filter some_, value, if_pos ⟨blank, holds⟩] at read
  unfold RoundTrips
  rw [formatValue_integer integer length, read, Option.map_some, pack_integerValue length]

end Integers

section Patterns

/-- The token of a byte. -/
def byteToken (byte : UInt8) : PatternToken :=
  .pair (upperDigit (byte.toNat / 16)) (upperDigit (byte.toNat % 16))
    (upperDigit_facts _ (by have := byte.toNat_lt; omega)).2
    (upperDigit_facts _ (by omega)).2

theorem bytesToHex_compact (bytes : List UInt8) :
    (bytesToHex bytes).filter (fun c => !isSpace c) = compactText (bytes.map byteToken) := by
  have kept (byte : UInt8) : [upperDigit (byte.toNat / 16), upperDigit (byte.toNat % 16)].filter
      (fun c => !isSpace c) = (byteToken byte).text := by
    refine List.filter_eq_self.mpr fun c inside => ?_
    simp [(text_letters (byteToken byte) c inside).2]
  have blank : [' '].filter (fun c => !isSpace c) = [] := by decide
  unfold bytesToHex
  rw [if_pos rfl]
  induction bytes with
  | nil => rfl
  | cons byte rest ih =>
      cases rest with
      | nil =>
          rw [List.map_singleton, List.intercalate_singleton, kept, List.map_singleton]
          exact (List.append_nil _).symm
      | cons next more =>
          rw [List.map_cons] at ih
          rw [List.map_cons, List.map_cons, List.intercalate_cons_cons, List.filter_append,
            List.filter_append, kept, blank, List.append_nil, ih]
          rfl

theorem roundTrips_bytes (some_ : bytes ≠ []) : RoundTrips floats api .bytes bytes := by
  have pattern (bytes : List UInt8) : (patternOf (bytes.map byteToken)).bytes = bytes := by
    induction bytes with
    | nil => rfl
    | cons byte rest ih =>
        show byteOfDigits _ _ :: (patternOf (rest.map byteToken)).bytes = byte :: rest
        rw [byteOfDigits_upperDigit, ih]
  have apart (bytes : List UInt8) : apartFrom false (bytes.map byteToken) = true := by
    induction bytes with
    | nil => rfl
    | cons byte rest ih => exact ih
  obtain ⟨⟨parsed, read, _, same⟩, _⟩ := compactPattern_tokens (bytes.map byteToken)
  have found : parseHexPattern (bytesToHex bytes) = some (patternOf (bytes.map byteToken)) := by
    rw [parseHexPattern_compact (bytesToHex_compact bytes), if_neg (by simp [some_]), read,
      same.mpr (apart bytes)]
  unfold RoundTrips parseScanValue scanBytes formatValue
  simp only [found, Option.map_some, pattern, List.isEmpty_iff, some_, ↓reduceIte]

end Patterns

section Texts

theorem textBytes_bytesText (bytes : List UInt8) : textBytes (bytesText bytes) = bytes := by
  have each (byte : UInt8) : UInt8.ofNat (Char.ofNat byte.toNat).toNat = byte := by
    have small := byte.toNat_lt
    rw [toNat_ofNat (Or.inl (by omega)), UInt8.ofNat_toNat]
  unfold textBytes bytesText
  rw [List.map_map]
  exact (List.map_congr_left fun byte _ => each byte).trans (List.map_id _)

theorem textBytes_formatValue_ascii (bytes : List UInt8) :
    textBytes (formatValue floats api .stringAscii bytes) =
      bytes.map fun byte => if isPrint byte then byte else 0x2E := by
  have text : formatValue floats api .stringAscii bytes =
      bytesText (bytes.map fun byte => if isPrint byte then byte else 0x2E) := by
    unfold formatValue bytesText
    rw [List.map_map]
    refine List.map_congr_left fun byte _ => ?_
    show (if isPrint byte = true then Char.ofNat byte.toNat else '.') =
      Char.ofNat (if isPrint byte = true then byte else 0x2E).toNat
    split <;> rfl
  rw [text, textBytes_bytesText]

theorem map_eq_self_iff {change : UInt8 → UInt8} {bytes : List UInt8} :
    bytes.map change = bytes ↔ ∀ byte ∈ bytes, change byte = byte := by
  constructor
  · intro same byte inside
    have pointwise := List.map_inj_left (f := change) (g := id) (l := bytes)
    rw [List.map_id] at pointwise
    exact pointwise.mp same byte inside
  · intro same
    exact (List.map_congr_left same).trans (List.map_id _)

theorem roundTrips_ascii (some_ : bytes ≠ []) :
    RoundTrips floats api .stringAscii bytes ↔ Shown .stringAscii bytes := by
  have read : (parseScanValue floats api .stringAscii
      (formatValue floats api .stringAscii bytes)).map (·.bytes) =
      some (bytes.map fun byte => if isPrint byte then byte else 0x2E) := by
    unfold parseScanValue scanBytes
    simp only [textBytes_formatValue_ascii, List.isEmpty_iff, List.map_eq_nil_iff, some_,
      ↓reduceIte, Option.map_some]
  unfold RoundTrips Shown
  rw [read, Option.some.injEq, map_eq_self_iff]
  refine forall₂_congr fun byte _ => ?_
  split
  · rename_i prints
    exact iff_of_true rfl prints
  · rename_i hidden
    refine iff_of_false (fun dot => hidden ?_) hidden
    rw [← dot]
    decide

end Texts

section WideTexts

theorem wideBytes_cons (unit : UInt16) (rest : WideText) :
    wideBytes (unit :: rest) =
      UInt8.ofNat (unit.toNat % 256) :: UInt8.ofNat (unit.toNat / 256) :: wideBytes rest := rfl

theorem wideOfBytes_wideBytes (text : WideText) : wideOfBytes (wideBytes text) = text := by
  induction text with
  | nil => rfl
  | cons unit rest ih =>
      have small := unit.toNat_lt
      have whole : (UInt8.ofNat (unit.toNat % 256)).toNat +
          256 * (UInt8.ofNat (unit.toNat / 256)).toNat = unit.toNat := by
        rw [UInt8.toNat_ofNat', UInt8.toNat_ofNat']
        omega
      rw [wideBytes_cons, wideOfBytes, whole, UInt16.ofNat_toNat, ih]

theorem wideBytes_even (text : WideText) : (wideBytes text).length % 2 = 0 := by
  induction text with
  | nil => rfl
  | cons unit rest ih =>
      rw [wideBytes_cons, List.length_cons, List.length_cons]
      omega

theorem wideBytes_wideOfBytes (even : bytes.length % 2 = 0) :
    wideBytes (wideOfBytes bytes) = bytes := by
  induction bytes using wideOfBytes.induct with
  | case1 low high rest ih =>
      have lowSmall := low.toNat_lt
      have highSmall := high.toNat_lt
      have number : (UInt16.ofNat (low.toNat + 256 * high.toNat)).toNat =
          low.toNat + 256 * high.toNat := by
        rw [UInt16.toNat_ofNat']
        omega
      have first : (low.toNat + 256 * high.toNat) % 256 = low.toNat := by omega
      have second : (low.toNat + 256 * high.toNat) / 256 = high.toNat := by omega
      rw [List.length_cons, List.length_cons] at even
      rw [wideOfBytes, wideBytes_cons, number, first, second, UInt8.ofNat_toNat, UInt8.ofNat_toNat,
        ih (by omega)]
  | case2 bytes short =>
      cases bytes with
      | nil => rfl
      | cons low rest =>
          cases rest with
          | nil => contradiction
          | cons high rest => exact absurd rfl (short low high rest)

/-- A control character becomes a dot. -/
def dotted (c : Char) : Char := if c.toNat < 0x20 then '.' else c

theorem dotted_large (c : Char) : 0x20 ≤ (dotted c).toNat := by
  unfold dotted
  split
  · decide
  · omega

theorem dotted_of_large {c : Char} (large : 0x20 ≤ c.toNat) : dotted c = c :=
  if_neg (Nat.not_lt.mpr large)

theorem bytesText_ascii {c : Char} (plain : c.toNat < 0x80) :
    bytesText (String.utf8EncodeChar c) = [c] := by
  rcases utf8EncodeChar_cases c with ⟨small, one⟩ | ⟨large, _⟩
  · have number : (UInt8.ofNat c.toNat).toNat = c.toNat := by
      rw [UInt8.toNat_ofNat']
      omega
    rw [one]
    show [Char.ofNat (UInt8.ofNat c.toNat).toNat] = [c]
    rw [number, Char.ofNat_toNat]
  · omega

theorem map_dotted_utf8EncodeChar (c : Char) :
    (bytesText (String.utf8EncodeChar c)).map dotted =
      bytesText (String.utf8EncodeChar (dotted c)) := by
  rcases utf8EncodeChar_cases c with ⟨small, _⟩ | ⟨large, above⟩
  · have still : (dotted c).toNat < 0x80 := by
      unfold dotted
      split
      · decide
      · exact small
    rw [bytesText_ascii small, bytesText_ascii still]
    rfl
  · rw [dotted_of_large (by omega)]
    unfold bytesText
    rw [List.map_map]
    refine List.map_congr_left fun byte inside => ?_
    have least := above byte inside
    have most := byte.toNat_lt
    have valid : byte.toNat < 0xD800 := by omega
    apply dotted_of_large
    show 0x20 ≤ (Char.ofNat byte.toNat).toNat
    rw [toNat_ofNat (Or.inl valid)]
    omega

/-- Dots for the bytes are dots for the characters. -/
theorem map_dotted_encode8 (characters : List Char) :
    (bytesText (encode8 characters)).map dotted =
      bytesText (encode8 (characters.map dotted)) := by
  induction characters with
  | nil => rfl
  | cons c rest ih =>
      have whole (c : Char) (rest : List Char) : bytesText (encode8 (c :: rest)) =
          bytesText (String.utf8EncodeChar c) ++ bytesText (encode8 rest) := by
        unfold bytesText encode8
        rw [List.flatMap_cons, List.map_append]
      rw [whole, List.map_append, ih, map_dotted_utf8EncodeChar, List.map_cons, whole]

/-- The characters of a value, up to a zero. -/
def characters (bytes : List UInt8) : List Char :=
  decode16 ((wideOfBytes bytes).takeWhile (· != 0))

/-- A character is a control character just when one of its units is below the space. -/
theorem units_large (c : Char) : (∀ unit ∈ units c, 0x20 ≤ unit.toNat) ↔ 0x20 ≤ c.toNat := by
  rcases units_cases c with ⟨only, one, _, number⟩ | ⟨high, low, two, isHigh, isLow, _, above⟩
  · rw [one, List.forall_mem_singleton, number]
  · rw [isHigh_iff] at isHigh
    rw [isLow_iff] at isLow
    rw [two, List.forall_mem_cons, List.forall_mem_singleton]
    omega

section Documented

variable (documented : Documented api)
include documented

theorem formatValue_wide (bytes : List UInt8) :
    formatValue floats api .stringUtf16 bytes =
      bytesText (encode8 ((characters bytes).map dotted)) := by
  have narrowed : ProjectStore.narrow api (wideOfBytes bytes) =
      bytesText (encode8 (characters bytes)) := by
    unfold ProjectStore.narrow
    split
    · rename_i empty
      unfold characters
      rw [List.isEmpty_iff.mp empty]
      rfl
    · exact documented.wideCharToMultiByte _
  unfold formatValue
  rw [narrowed]
  exact map_dotted_encode8 _

theorem formatValue_wide_large (bytes : List UInt8) :
    ∀ c ∈ formatValue floats api .stringUtf16 bytes, 0x20 ≤ c.toNat := by
  rw [formatValue_wide documented, ← map_dotted_encode8]
  intro c inside
  obtain ⟨other, _, rfl⟩ := List.mem_map.mp inside
  exact dotted_large other

/-- What is read of the text of a value. -/
theorem widen_formatValue (bytes : List UInt8) :
    widen api (formatValue floats api .stringUtf16 bytes) =
      encode16 ((characters bytes).map dotted) := by
  rw [formatValue_wide documented]
  unfold widen
  split
  · rename_i empty
    have none_ : textBytes (bytesText (encode8 ((characters bytes).map dotted))) = [] := by
      rw [List.isEmpty_iff.mp empty]
      rfl
    rw [textBytes_bytesText] at none_
    have decoded := decode8_encode8 ((characters bytes).map dotted)
    rw [none_] at decoded
    have nothing : decode8 [] = some [] := decode8_encode8 []
    rw [nothing] at decoded
    rw [← Option.some.inj decoded]
    rfl
  · refine documented.multiByteToWideChar _ fun c inside => ?_
    obtain ⟨other, _, rfl⟩ := List.mem_map.mp inside
    intro zero
    exact absurd (zero ▸ dotted_large other) (by decide)

theorem parseScanValue_wide (bytes : List UInt8) :
    (parseScanValue floats api .stringUtf16
        (formatValue floats api .stringUtf16 bytes)).map (·.bytes) =
      if (characters bytes).map dotted = [] then none
      else some (wideBytes (encode16 ((characters bytes).map dotted))) := by
  have empty : (wideBytes (encode16 ((characters bytes).map dotted))).isEmpty = true ↔
      (characters bytes).map dotted = [] := by
    rw [List.isEmpty_iff]
    constructor
    · intro none_
      have back := wideOfBytes_wideBytes (encode16 ((characters bytes).map dotted))
      rw [none_] at back
      rw [← decode16_encode16 ((characters bytes).map dotted), ← back]
      rfl
    · intro none_
      rw [none_]
      rfl
  unfold parseScanValue scanBytes
  simp only [widen_formatValue documented, empty]
  split <;> rfl

theorem roundTrips_wide (some_ : bytes ≠ []) :
    RoundTrips floats api .stringUtf16 bytes ↔ Shown .stringUtf16 bytes := by
  unfold RoundTrips Shown
  rw [parseScanValue_wide documented]
  constructor
  · intro read
    split at read
    · contradiction
    · have same := Option.some.inj read
      have wide : wideOfBytes bytes = encode16 ((characters bytes).map dotted) := by
        rw [← same, wideOfBytes_wideBytes, same]
      refine ⟨by rw [← same]; exact wideBytes_even _, by rw [wide]; exact wellFormed_encode16 _, ?_⟩
      intro unit inside
      rw [wide] at inside
      obtain ⟨c, listed, unitOf⟩ := List.mem_flatMap.mp inside
      obtain ⟨other, _, rfl⟩ := List.mem_map.mp listed
      exact (units_large (dotted other)).mpr (dotted_large other) unit unitOf
  · rintro ⟨even, formed, large⟩
    have uncut : (wideOfBytes bytes).takeWhile (· != 0) = wideOfBytes bytes := by
      refine List.takeWhile_eq_self_iff.mpr fun unit inside => ?_
      rw [bne_iff_ne]
      rintro rfl
      exact absurd (large _ inside) (by decide)
    have encoded : encode16 (characters bytes) = wideOfBytes bytes := by
      unfold characters
      rw [uncut, encode16_decode16 formed]
    have plain : (characters bytes).map dotted = characters bytes := by
      refine (List.map_congr_left fun c inside => dotted_of_large ?_).trans (List.map_id _)
      have unitsIn : ∀ unit ∈ units c, 0x20 ≤ unit.toNat := fun unit unitOf =>
        large unit (encoded ▸ List.mem_flatMap.mpr ⟨c, inside, unitOf⟩)
      exact (units_large c).mp unitsIn
    have back := wideBytes_wideOfBytes even
    rw [plain, encoded, back, if_neg]
    intro none_
    rw [none_] at encoded
    rw [← encoded] at back
    exact some_ back.symm

end Documented

end WideTexts

section Boxes

theorem digit_ne_zero {c : Char} (hex : isHexDigit c = true) : c ≠ '\x00' := by
  rintro rfl
  contradiction

/-- A text that fits stays whole in the box. -/
theorem boxed_eq {text : Text} (fits : text.length < 128) (whole : ∀ c ∈ text, c ≠ '\x00') :
    boxed text = text := by
  unfold boxed
  rw [List.take_of_length_le (by omega)]
  exact List.takeWhile_eq_self_iff.mpr fun c inside => bne_iff_ne.mpr (whole c inside)

/-- What the text of a box is read as. -/
theorem rewritten_eq {filled : List UInt8} :
    rewritten floats api type filled bytes =
      ((parseScanValue floats api type (boxed (formatValue floats api type filled))).map
        (·.bytes)).getD bytes := by
  unfold rewritten
  cases parseScanValue floats api type (boxed (formatValue floats api type filled)) <;> rfl

/-- A value that comes back from its text comes back from the box. -/
theorem rewritten_roundTrips {filled : List UInt8}
    (fits : (formatValue floats api type filled).length < 128)
    (whole : ∀ c ∈ formatValue floats api type filled, c ≠ '\x00')
    (back : RoundTrips floats api type filled) :
    rewritten floats api type filled bytes = filled := by
  rw [rewritten_eq, boxed_eq fits whole, back]
  rfl

section Integers

theorem integerText_length {value : Int} (small : value.natAbs < 10 ^ 20) :
    (integerText value).length ≤ 21 := by
  have digits (number : Nat) (below : number < 10 ^ 20) : (Nat.toDigits 10 number).length ≤ 20 :=
    (Nat.length_toDigits_le_iff (by decide) (by decide)).mpr below
  unfold integerText
  split
  · have := digits value.natAbs small
    rw [List.length_cons]
    omega
  · have := digits value.toNat (by omega)
    omega

theorem natAbs_integerValue (integer : isIntegerType type = true)
    (length : bytes.length = valueTypeSize type) :
    (integerValue type bytes).natAbs < 10 ^ 20 := by
  have holds := integerValue_holds integer length
  have bits : (intType type).bits ≤ 64 := by cases type <;> decide
  have power {exponent : Nat} (small : exponent ≤ 64) : (2 : Int) ^ exponent ≤ 2 ^ 64 := by
    exact_mod_cast Nat.pow_le_pow_right (by decide) small
  have whole := power bits
  have half := @power ((intType type).bits - 1) (by omega)
  unfold IntType.Holds at holds
  split at holds <;> omega

theorem rewritten_integer (integer : isIntegerType type = true)
    (length : bytes.length = valueTypeSize type) :
    rewritten floats api type bytes bytes = bytes := by
  have text := @formatValue_integer floats api type bytes integer length
  have short := integerText_length (natAbs_integerValue integer length)
  refine rewritten_roundTrips ?_ ?_ (roundTrips_integer integer length)
  · rw [text]
    omega
  · intro c inside
    rw [text] at inside
    unfold integerText at inside
    split at inside
    · rcases List.mem_cons.mp inside with rfl | digit
      · decide
      · exact digit_ne_zero (toDigits_hexDigit _ c digit)
    · exact digit_ne_zero (toDigits_hexDigit _ c inside)

end Integers

section Patterns

/-- The digits of a byte. -/
def byteDigits (byte : UInt8) : Text :=
  [upperDigit (byte.toNat / 16), upperDigit (byte.toNat % 16)]

theorem bytesToHex_cons (byte : UInt8) {rest : List UInt8} (some_ : rest ≠ []) :
    bytesToHex (byte :: rest) = byteDigits byte ++ ' ' :: bytesToHex rest := by
  obtain ⟨next, more, rfl⟩ := List.exists_cons_of_ne_nil some_
  rfl

theorem bytesToHex_no_zero : ∀ c ∈ bytesToHex bytes, c ≠ '\x00' := by
  intro c inside
  cases space : isSpace c with
  | true =>
      rintro rfl
      contradiction
  | false =>
      have kept : c ∈ (bytesToHex bytes).filter (fun c => !isSpace c) :=
        List.mem_filter.mpr ⟨inside, by simp [space]⟩
      rw [bytesToHex_compact] at kept
      obtain ⟨token, _, letter⟩ := List.mem_flatMap.mp kept
      have letters := (text_letters token c letter).1
      rintro rfl
      contradiction

theorem bytesToHex_length (some_ : bytes ≠ []) :
    (bytesToHex bytes).length + 1 = 3 * bytes.length := by
  induction bytes with
  | nil => exact absurd rfl some_
  | cons byte rest ih =>
      by_cases last : rest = []
      · rw [last]
        rfl
      · have := ih last
        rw [bytesToHex_cons byte last, List.length_append, List.length_cons, List.length_cons]
        show 2 + _ + 1 = _
        omega

/-- Three letters on, the next byte starts: what is cut one letter behind that ends in half of a
byte. -/
theorem bytesToHex_cut {count : Nat} (more : count < bytes.length) :
    ((bytesToHex bytes).take (3 * count + 1)).filter (fun c => !isSpace c) =
      compactText ((bytes.take count).map byteToken) ++
        [upperDigit ((bytes.get ⟨count, more⟩).toNat / 16)] := by
  have digit (number : Nat) (small : number < 16) : isSpace (upperDigit number) = false :=
    hex_not_space (upperDigit_facts number small).2
  induction count generalizing bytes with
  | zero =>
      obtain ⟨byte, rest, rfl⟩ := List.exists_cons_of_length_pos more
      have high := digit (byte.toNat / 16) (by have := byte.toNat_lt; omega)
      have first : (bytesToHex (byte :: rest)).take 1 = [upperDigit (byte.toNat / 16)] := by
        cases rest <;> rfl
      rw [Nat.mul_zero, Nat.zero_add, first, List.filter_cons_of_pos (by rw [high]; rfl)]
      rfl
  | succ count ih =>
      obtain ⟨byte, rest, rfl⟩ := List.exists_cons_of_length_pos (Nat.zero_lt_of_lt more)
      have inRest : count < rest.length := Nat.lt_of_succ_lt_succ more
      have some_ : rest ≠ [] := List.length_pos_iff.mp (Nat.zero_lt_of_lt inRest)
      have high := digit (byte.toNat / 16) (by have := byte.toNat_lt; omega)
      have low := digit (byte.toNat % 16) (by omega)
      have blank : isSpace ' ' = true := by decide
      have pieces : (bytesToHex (byte :: rest)).take (3 * (count + 1) + 1) =
          byteDigits byte ++ ' ' :: (bytesToHex rest).take (3 * count + 1) := by
        rw [bytesToHex_cons byte some_]
        rfl
      rw [pieces, List.filter_append, List.filter_cons_of_neg (by rw [blank]; decide), ih inRest]
      have kept : (byteDigits byte).filter (fun c => !isSpace c) = (byteToken byte).text :=
        List.filter_eq_self.mpr fun c inside => by
          simp [(text_letters (byteToken byte) c inside).2]
      rw [kept]
      rfl

/-- Half of a byte at the end is refused. -/
theorem compactPattern_half (bytes : List UInt8) {digit : Char} (hex : isHexDigit digit = true) :
    compactPattern (compactText (bytes.map byteToken) ++ [digit]) = none := by
  induction bytes with
  | nil =>
      have letter := hex_ne_mark hex
      show compactPattern [digit] = none
      rw [compactPattern.eq_def]
      split <;> simp_all
  | cons byte rest ih =>
      have low := (upperDigit_facts (byte.toNat % 16) (by omega)).2
      have high := (upperDigit_facts (byte.toNat / 16) (by have := byte.toNat_lt; omega)).2
      show compactPattern (upperDigit (byte.toNat / 16) :: upperDigit (byte.toNat % 16) ::
        (compactText (rest.map byteToken) ++ [digit])) = none
      rw [compactPattern_pair high low, ih]
      rfl

theorem edited_bytes (some_ : bytes ≠ []) : edited floats api .bytes bytes = bytes := by
  have length := bytesToHex_length some_
  unfold edited
  by_cases short : bytes.length ≤ 42
  · refine rewritten_roundTrips ?_ bytesToHex_no_zero (roundTrips_bytes some_)
    show (bytesToHex bytes).length < 128
    omega
  · have more : 42 < bytes.length := by omega
    have cut : boxed (bytesToHex bytes) = (bytesToHex bytes).take (3 * 42 + 1) :=
      List.takeWhile_eq_self_iff.mpr fun c inside =>
        bne_iff_ne.mpr (bytesToHex_no_zero c (List.mem_of_mem_take inside))
    have hex := (upperDigit_facts ((bytes.get ⟨42, more⟩).toNat / 16)
      (by have := (bytes.get ⟨42, more⟩).toNat_lt; omega)).2
    have refused : parseHexPattern (boxed (bytesToHex bytes)) = none := by
      unfold parseHexPattern
      rw [cut, bytesToHex_cut more]
      dsimp only
      rw [compactPattern_half _ hex]
      split
      · rfl
      · split <;> rfl
    rw [rewritten_eq]
    unfold parseScanValue scanBytes formatValue
    simp only [refused, Option.map_none, Option.getD_none]

theorem written_bytes (byte : UInt8) (rest : List UInt8) :
    written floats api .bytes (byte :: rest) = [byte] :=
  rewritten_roundTrips (show 2 < 128 by decide) bytesToHex_no_zero
    (roundTrips_bytes (List.cons_ne_nil _ _))

end Patterns

section Texts

theorem parseScanValue_ascii (text : Text) :
    (parseScanValue floats api .stringAscii text).map (·.bytes) =
      if text = [] then none else some (textBytes text) := by
  unfold parseScanValue scanBytes
  simp only [textBytes, List.isEmpty_iff, List.map_eq_nil_iff]
  split <;> rfl

theorem formatValue_ascii_no_zero : ∀ c ∈ formatValue floats api .stringAscii bytes,
    c ≠ '\x00' := by
  intro c inside
  obtain ⟨byte, _, rfl⟩ := List.mem_map.mp inside
  have small := byte.toNat_lt
  split
  · rename_i prints
    unfold isPrint at prints
    simp only [Bool.and_eq_true, decide_eq_true_eq, UInt8.le_iff_toNat_le] at prints
    have least : 0x20 ≤ byte.toNat := prints.1
    intro zero
    have number := congrArg Char.toNat zero
    rw [toNat_ofNat (Or.inl (by omega))] at number
    have none_ : ('\x00' : Char).toNat = 0 := rfl
    omega
  · decide

/-- At most 127 bytes of a text come back. -/
theorem rewritten_ascii {filled : List UInt8} (some_ : filled ≠ []) :
    rewritten floats api .stringAscii filled bytes =
      (filled.take 127).map fun byte => if isPrint byte then byte else 0x2E := by
  have cut : boxed (formatValue floats api .stringAscii filled) =
      (formatValue floats api .stringAscii filled).take 127 :=
    List.takeWhile_eq_self_iff.mpr fun c inside =>
      bne_iff_ne.mpr (formatValue_ascii_no_zero c (List.mem_of_mem_take inside))
  have taken : textBytes ((formatValue floats api .stringAscii filled).take 127) =
      (textBytes (formatValue floats api .stringAscii filled)).take 127 := List.map_take
  have nonempty : (formatValue floats api .stringAscii filled).take 127 ≠ [] := by
    unfold formatValue
    simp only [ne_eq, List.take_eq_nil_iff, List.map_eq_nil_iff, some_, OfNat.ofNat_ne_zero,
      or_self, not_false_eq_true]
  rw [rewritten_eq, cut, parseScanValue_ascii, if_neg nonempty, taken,
    textBytes_formatValue_ascii, List.map_take]
  rfl

theorem dots_eq_iff : (bytes.map fun byte => if isPrint byte then byte else 0x2E) = bytes ↔
    Shown .stringAscii bytes := by
  rw [map_eq_self_iff]
  refine forall₂_congr fun byte _ => ?_
  split
  · rename_i prints
    exact iff_of_true rfl prints
  · rename_i hidden
    refine iff_of_false (fun dot => hidden ?_) hidden
    rw [← dot]
    decide

theorem edited_ascii_iff (some_ : bytes ≠ []) :
    edited floats api .stringAscii bytes = bytes ↔ EditKeeps .stringAscii bytes := by
  unfold edited EditKeeps
  rw [rewritten_ascii some_]
  by_cases short : bytes.length < 128
  · rw [List.take_of_length_le (by omega), dots_eq_iff, and_iff_left short]
  · refine iff_of_false (fun same => ?_) (fun both => short both.2)
    have length := congrArg List.length same
    rw [List.length_map, List.length_take] at length
    omega

theorem written_ascii_iff (some_ : bytes ≠ []) :
    written floats api .stringAscii bytes = bytes ↔ WriteKeeps .stringAscii bytes := by
  obtain ⟨byte, rest, rfl⟩ := List.exists_cons_of_ne_nil some_
  have first : (byte :: rest).take (max 1 (valueTypeSize .stringAscii)) = [byte] := rfl
  unfold written WriteKeeps
  rw [first, rewritten_ascii (List.cons_ne_nil _ _)]
  cases rest with
  | nil => exact dots_eq_iff.trans (and_iff_right rfl).symm
  | cons next more =>
      refine iff_of_false (fun same => ?_) (fun both => ?_)
      · exact absurd (congrArg List.length same) (by simp)
      · exact absurd both.1 (by simp)

end Texts

section WideTexts

variable (documented : Documented api)
include documented

/-- Only a text without characters is refused. -/
theorem refused_wide_iff :
    (parseScanValue floats api .stringUtf16 (formatValue floats api .stringUtf16 bytes)).map
        (·.bytes) = none ↔ (wideOfBytes bytes).takeWhile (· != 0) = [] := by
  have none_ : (characters bytes).map dotted = [] ↔
      (wideOfBytes bytes).takeWhile (· != 0) = [] := by
    rw [List.map_eq_nil_iff]
    unfold characters
    constructor
    · intro nothing
      generalize (wideOfBytes bytes).takeWhile (· != 0) = text at *
      unfold decode16 at nothing
      split at nothing
      · split at nothing <;> contradiction
      · contradiction
      · rfl
    · intro nothing
      rw [nothing]
      rfl
  rw [parseScanValue_wide documented, ← none_]
  split
  · rename_i nothing
    exact iff_of_true rfl nothing
  · rename_i any
    exact iff_of_false (by simp) any

theorem edited_wide_iff (some_ : bytes ≠ [])
    (fits : (formatValue floats api .stringUtf16 bytes).length < 128) :
    edited floats api .stringUtf16 bytes = bytes ↔ EditKeeps .stringUtf16 bytes := by
  have whole : ∀ c ∈ formatValue floats api .stringUtf16 bytes, c ≠ '\x00' := by
    intro c inside zero
    exact absurd (zero ▸ formatValue_wide_large documented bytes c inside) (by decide)
  unfold edited EditKeeps
  rw [rewritten_eq, boxed_eq fits whole, ← refused_wide_iff documented,
    ← roundTrips_wide documented some_]
  unfold RoundTrips
  cases (parseScanValue floats api .stringUtf16
    (formatValue floats api .stringUtf16 bytes)).map (·.bytes) with
  | none => exact iff_of_true rfl (Or.inr rfl)
  | some stored => simp

theorem written_wide : written floats api .stringUtf16 bytes = bytes := by
  have refused : (wideOfBytes (bytes.take 1)).takeWhile (· != 0) = [] := by
    cases bytes <;> rfl
  have none_ : formatValue floats api .stringUtf16 (bytes.take 1) = [] := by
    rw [formatValue_wide documented]
    unfold characters
    rw [refused]
    rfl
  have parsed := (@refused_wide_iff floats api (bytes.take 1) documented).mpr refused
  rw [none_] at parsed
  have first : bytes.take (max 1 (valueTypeSize .stringUtf16)) = bytes.take 1 := rfl
  have empty : boxed [] = [] := rfl
  unfold written
  rw [rewritten_eq, first, none_, empty, parsed]
  rfl

end WideTexts

end Boxes

/-- Exactly which values come back from their text, and which are left as they are by Write and by
Edit and Apply. What becomes of a character of UTF-16 that the box cuts is not said. -/
theorem roundTrips_iff (floats : FloatText) {api : Conversion} (documented : Documented api)
    (type : ValueType) (bytes : List UInt8) (notFloat : type ≠ .float ∧ type ≠ .double)
    (value : IsValue type bytes) :
    (RoundTrips floats api type bytes ↔ Shown type bytes) ∧
      (written floats api type bytes = bytes ↔ WriteKeeps type bytes) ∧
      ((type = .stringUtf16 → (formatValue floats api type bytes).length < 128) →
        (edited floats api type bytes = bytes ↔ EditKeeps type bytes)) := by
  by_cases integer : isIntegerType type = true
  · rw [IsValue, if_pos integer] at value
    have all : bytes.take (max 1 (valueTypeSize type)) = bytes := by
      rw [List.take_of_length_le (by omega)]
    have shown : Shown type bytes ∧ WriteKeeps type bytes ∧ EditKeeps type bytes := by
      cases type <;> first | contradiction | exact ⟨trivial, trivial, trivial⟩
    have same := @rewritten_integer floats api type bytes integer value
    refine ⟨iff_of_true (roundTrips_integer integer value) shown.1, iff_of_true ?_ shown.2.1,
      fun _ => iff_of_true same shown.2.2⟩
    unfold written
    rw [all]
    exact same
  · rw [IsValue, if_neg integer] at value
    cases type with
    | bytes =>
        refine ⟨iff_of_true (roundTrips_bytes value) trivial, ?_,
          fun _ => iff_of_true (edited_bytes value) trivial⟩
        obtain ⟨byte, rest, rfl⟩ := List.exists_cons_of_ne_nil value
        rw [written_bytes]
        unfold WriteKeeps
        simp [eq_comm]
    | stringAscii =>
        exact ⟨roundTrips_ascii value, written_ascii_iff value, fun _ => edited_ascii_iff value⟩
    | stringUtf16 =>
        exact ⟨roundTrips_wide documented value, iff_of_true (written_wide documented) trivial,
          fun fits => edited_wide_iff documented value (fits rfl)⟩
    | float => exact absurd rfl notFloat.1
    | double => exact absurd rfl notFloat.2
    | _ => exact absurd rfl integer

theorem utfConversion_documented : Documented utfConversion where
  wideCharToMultiByte := fun _ => rfl
  multiByteToWideChar := by
    intro characters nonzero
    have whole : (bytesText (encode8 characters)).takeWhile (· != '\x00') =
        bytesText (encode8 characters) := by
      refine List.takeWhile_eq_self_iff.mpr fun letter inside => bne_iff_ne.mpr fun zero => ?_
      obtain ⟨byte, listed, rfl⟩ := List.mem_map.mp inside
      obtain ⟨c, known, ofChar⟩ := List.mem_flatMap.mp listed
      have small := byte.toNat_lt
      have number := congrArg Char.toNat zero
      rw [toNat_ofNat (Or.inl (by omega))] at number
      have none_ : ('\x00' : Char).toNat = 0 := rfl
      rcases utf8EncodeChar_cases c with ⟨plain, one⟩ | ⟨_, above⟩
      · rw [one, List.mem_singleton] at ofChar
        rw [ofChar, UInt8.toNat_ofNat'] at number
        exact nonzero c known (Char.toNat_inj.mp (by omega))
      · have := above byte ofChar
        omega
    unfold utfConversion
    simp only [whole, textBytes_bytesText, decode8_encode8]

/-- "Pl" in UTF-16. -/
theorem roundTrips_pl :
    RoundTrips noFloatText utfConversion .stringUtf16 [0x50, 0, 0x6C, 0] ∧
      edited noFloatText utfConversion .stringUtf16 [0x50, 0, 0x6C, 0] = [0x50, 0, 0x6C, 0] := by
  have printable : (wideOfBytes [0x50, 0, 0x6C, 0]).all (fun unit => 0x20 ≤ unit.toNat) = true := by
    decide
  have shown : Shown .stringUtf16 [0x50, 0, 0x6C, 0] :=
    ⟨rfl, rfl, fun unit listed => of_decide_eq_true (List.all_eq_true.mp printable unit listed)⟩
  obtain ⟨read, _, kept⟩ := roundTrips_iff noFloatText utfConversion_documented .stringUtf16
    [0x50, 0, 0x6C, 0] ⟨by decide, by decide⟩ (List.cons_ne_nil _ _)
  exact ⟨read.mpr shown, (kept fun _ => by decide).mpr (Or.inl shown)⟩

/-- A bell in a text is written back as a dot, and of three bytes Write stores the first. -/
theorem bell_dotted :
    ¬ RoundTrips noFloatText utfConversion .stringAscii [0x41, 0x07] ∧
      edited noFloatText utfConversion .stringAscii [0x41, 0x07] = [0x41, 0x2E] ∧
      written noFloatText utfConversion .bytes [0x90, 0x90, 0x90] = [0x90] := by
  unfold RoundTrips
  decide

end PointerLab.Domain
