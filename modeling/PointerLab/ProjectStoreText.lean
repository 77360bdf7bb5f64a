import Mathlib.Data.List.TakeWhile
import PointerLab.ProjectStore

set_option autoImplicit false

/- The fields of a project file: each is read back as it was written, and none of them
breaks its line. -/
namespace PointerLab.ProjectStore

open Domain Digits Pieces

/-- A character that `escape` leaves alone. -/
def Plain (c : Char) : Prop := c ≠ '\\' ∧ c ≠ '|' ∧ c ≠ '\n' ∧ c ≠ '\r'

instance : DecidablePred Plain := fun _ => inferInstanceAs (Decidable (_ ∧ _))

theorem escapeChar_plain {c : Char} (plain : Plain c) : escapeChar c = [c] := by
  obtain ⟨slash, bar, line, feed⟩ := plain
  simp [escapeChar, slash, bar, line, feed]

/-- The other four characters come out as a backslash and something plain or escaped. -/
theorem escapeChar_special {c : Char} (special : ¬ Plain c) :
    ∃ shown, escapeChar c = ['\\', shown] ∧ shown ≠ '\n' ∧ shown ≠ '\r' ∧
      (if shown == 'n' then '\n' else if shown == 'r' then '\r' else shown) = c := by
  simp only [Plain, ne_eq, not_and_or, not_not] at special
  rcases special with rfl | rfl | rfl | rfl
  · exact ⟨'\\', by decide⟩
  · exact ⟨'|', by decide⟩
  · exact ⟨'n', by decide⟩
  · exact ⟨'r', by decide⟩

theorem escape_cons (c : Char) (text : Text) : escape (c :: text) = escapeChar c ++ escape text :=
  List.flatMap_cons

theorem escape_plain {text : Text} (plain : ∀ c ∈ text, Plain c) : escape text = text := by
  induction text with
  | nil => rfl
  | cons c text ih =>
      rw [escape_cons, escapeChar_plain (plain c List.mem_cons_self),
        ih fun c inText => plain c (List.mem_cons_of_mem _ inText), List.singleton_append]

/-- What is escaped has no line breaks. -/
theorem escape_unbroken (text : Text) : ∀ c ∈ escape text, c ≠ '\n' ∧ c ≠ '\r' := by
  intro c inside
  obtain ⟨source, _, shown⟩ := List.mem_flatMap.mp inside
  by_cases plain : Plain source
  · rw [escapeChar_plain plain, List.mem_singleton] at shown
    exact shown ▸ ⟨plain.2.2.1, plain.2.2.2⟩
  · obtain ⟨code, written, line, feed, _⟩ := escapeChar_special plain
    rw [written] at shown
    rcases List.mem_cons.mp shown with rfl | shown
    · decide
    · exact List.mem_singleton.mp shown ▸ ⟨line, feed⟩

theorem unescape_escape (text : Text) : unescape (escape text) = text := by
  induction text with
  | nil => rfl
  | cons c text ih =>
      rw [escape_cons]
      by_cases plain : Plain c
      · rw [escapeChar_plain plain, List.singleton_append]
        have step (rest : Text) : unescape (c :: rest) = c :: unescape rest := by
          rw [unescape]
          intro n tail same
          exact absurd same plain.1
        rw [step, ih]
      · obtain ⟨code, written, _, _, read⟩ := escapeChar_special plain
        rw [written, List.cons_append, List.singleton_append, unescape, read, ih]

/-- An escaped field is read up to its end. -/
theorem splitFrom_escape (current text rest : Text) :
    splitFrom false current (escape text ++ rest) =
      splitFrom false (current ++ escape text) rest := by
  induction text generalizing current with
  | nil => simp only [escape, List.flatMap_nil, List.nil_append, List.append_nil]
  | cons c text ih =>
      rw [escape_cons]
      by_cases plain : Plain c
      · rw [escapeChar_plain plain, List.singleton_append, List.cons_append, splitFrom,
          if_neg (by simpa using plain.1), if_neg (by simpa using plain.2.1), ih,
          List.append_assoc, List.singleton_append]
      · obtain ⟨code, written, _, _, _⟩ := escapeChar_special plain
        rw [written, List.cons_append, List.singleton_append, List.cons_append, List.cons_append,
          splitFrom, if_pos (by decide), splitFrom, ih, List.append_assoc, List.cons_append,
          List.singleton_append]

/-- A line of escaped fields splits into the fields. -/
theorem splitEscaped_record {fields : List Text} (nonempty : fields ≠ []) :
    splitEscaped (record (fields.map escape)) = fields := by
  induction fields with
  | nil => exact absurd rfl nonempty
  | cons field rest ih =>
      cases rest with
      | nil =>
          have whole := splitFrom_escape [] field []
          rw [List.append_nil, List.nil_append] at whole
          rw [List.map_cons, List.map_nil, record, List.intercalate_singleton, splitEscaped, whole,
            splitFrom, unescape_escape]
      | cons next rest =>
          have later := ih (List.cons_ne_nil _ _)
          rw [splitEscaped, record] at later
          rw [List.map_cons, record, List.map_cons, List.intercalate_cons_cons, List.append_assoc,
            List.singleton_append, splitEscaped, splitFrom_escape, splitFrom, if_neg (by decide),
            if_pos (by decide), List.nil_append, unescape_escape, ← List.map_cons, later]

/-- A line of escaped fields has no line breaks. -/
theorem record_unbroken (fields : List Text) :
    ∀ c ∈ record (fields.map escape), c ≠ '\n' ∧ c ≠ '\r' := by
  induction fields with
  | nil => exact fun _ inside => absurd inside List.not_mem_nil
  | cons field rest ih =>
      cases rest with
      | nil =>
          rw [List.map_cons, List.map_nil, record, List.intercalate_singleton]
          exact escape_unbroken field
      | cons next rest =>
          intro c inside
          rw [List.map_cons, record, List.map_cons, List.intercalate_cons_cons, List.append_assoc,
            List.singleton_append] at inside
          rcases List.mem_append.mp inside with first | later
          · exact escape_unbroken field c first
          · rcases List.mem_cons.mp later with rfl | later
            · decide
            · exact ih c later

theorem plain_of_hexDigit {c : Char} (digit : isHexDigit c = true) : Plain c := by
  refine ⟨?_, ?_, ?_, ?_⟩ <;> · rintro rfl; exact absurd digit (by decide)

theorem hex_digits (value : Nat) : ∀ c ∈ hex value, isHexDigit c = true := toDigits_hex value

theorem decimal_plain (value : Nat) : ∀ c ∈ decimal value, Plain c := by
  intro c inside
  have digit := toDigits_decimal value c inside
  refine plain_of_hexDigit ?_
  simp only [isHexDigit, digit, Bool.true_or]

theorem hex_plain (value : Nat) : ∀ c ∈ hex value, Plain c :=
  fun c inside => plain_of_hexDigit (hex_digits value c inside)

theorem length_le_twenty {base value : Nat} (large : 10 ≤ base) (fits : value < addressSpace) :
    (Nat.toDigits base value).length ≤ 20 := by
  have power : addressSpace < 10 ^ 20 := by decide
  have grows : 10 ^ 20 ≤ base ^ 20 := Nat.pow_le_pow_left large 20
  apply (Nat.length_toDigits_le_iff (by omega) (by decide)).mpr
  omega

/-- The digits of an address are read back in the base they were written in. -/
theorem parseUnsigned_toDigits {base value : Nat} (large : 10 ≤ base) (hexadecimal : base ≤ 16)
    (digits : ∀ c ∈ Nat.toDigits base value, (if base == 16 then isHexDigit c else c.isDigit) = true)
    (fits : value < addressSpace) :
    parseUnsigned (Nat.toDigits base value) base = some value := by
  have valid : (Nat.toDigits base value).any
      (fun c => !(if base == 16 then isHexDigit c else c.isDigit)) = false := by
    rw [List.any_eq_false]
    intro c inside
    rw [digits c inside]
    decide
  have nonempty : (Nat.toDigits base value).isEmpty = false :=
    List.isEmpty_eq_false_iff.mpr Nat.toDigits_ne_nil
  have read : number base (Nat.toDigits base value) = value :=
    number_toDigits (by omega) hexadecimal value
  have short : ¬20 < (Nat.toDigits base value).length :=
    Nat.not_lt.mpr (length_le_twenty large fits)
  unfold parseUnsigned
  dsimp only
  rw [nonempty, decide_eq_false short, valid, read, if_pos fits]
  rfl

theorem parseUnsigned_decimal {value : Nat} (fits : value < addressSpace) :
    parseUnsigned (decimal value) 10 = some value :=
  parseUnsigned_toDigits (by decide) (by decide) (toDigits_decimal value) fits

theorem parseUnsigned_hex {value : Nat} (fits : value < addressSpace) :
    parseUnsigned (hex value) 16 = some value :=
  parseUnsigned_toDigits (by decide) (by decide) (hex_digits value) fits

/-- The values of a `std::ptrdiff_t`. -/
def IsPtrdiff (value : Int) : Prop := -0x8000000000000000 ≤ value ∧ value < 0x8000000000000000

theorem toUnsigned_lt (value : Int) : toUnsigned value < addressSpace := by
  unfold toUnsigned addressSpace
  omega

theorem toSigned_toUnsigned {value : Int} (fits : IsPtrdiff value) :
    toSigned (toUnsigned value) = value := by
  obtain ⟨lower, upper⟩ := fits
  unfold toSigned toUnsigned addressSpace
  split <;> omega

theorem not_isSpace_of_hexDigit {c : Char} (digit : isHexDigit c = true) :
    ¬ isSpace c = true := by
  intro space
  simp only [isSpace, Bool.or_eq_true, beq_iff_eq] at space
  rcases space with ((((rfl | rfl) | rfl) | rfl) | rfl) | rfl <;> exact absurd digit (by decide)

theorem skipSign_hex {text : Text} (digits : ∀ c ∈ text, isHexDigit c = true) :
    skipSign text = (false, text) := by
  unfold skipSign
  split
  · exact absurd (digits '-' List.mem_cons_self) (by decide)
  · exact absurd (digits '+' List.mem_cons_self) (by decide)
  · rfl

theorem skipBase_hex {text : Text} (digits : ∀ c ∈ text, isHexDigit c = true) :
    skipBase text = text := by
  unfold skipBase
  split
  · exact absurd (digits 'x' (List.mem_cons_of_mem _ List.mem_cons_self)) (by decide)
  · exact absurd (digits 'X' (List.mem_cons_of_mem _ List.mem_cons_self)) (by decide)
  · rfl

/-- On a text of hexadecimal digits `stoull` reads all of it. -/
theorem stoull16_hex {value : Nat} (fits : value < addressSpace) :
    stoull16 (hex value) = some (value, (hex value).length) := by
  have digits := hex_digits value
  have nonempty : (hex value).isEmpty = false :=
    List.isEmpty_eq_false_iff.mpr Nat.toDigits_ne_nil
  have read : number 16 (hex value) = value := number_toDigits (by decide) (by decide) value
  have unspaced : (hex value).dropWhile isSpace = hex value := by
    refine List.dropWhile_eq_self_iff.mpr fun longer => ?_
    exact not_isSpace_of_hexDigit (digits _ (List.getElem_mem longer))
  have whole : (hex value).takeWhile isHexDigit = hex value :=
    List.takeWhile_eq_self_iff.mpr digits
  have below : ¬ addressSpace ≤ value := Nat.not_le.mpr fits
  simp [stoull16, unspaced, skipSign_hex digits, skipBase_hex digits, whole, nonempty, read, below]

theorem parseOffset_hex {offset : Int} (fits : IsPtrdiff offset) :
    parseOffset (hex (toUnsigned offset)) = some offset := by
  have nonempty : (hex (toUnsigned offset)).isEmpty = false :=
    List.isEmpty_eq_false_iff.mpr Nat.toDigits_ne_nil
  simp [parseOffset, nonempty, stoull16_hex (toUnsigned_lt offset), toSigned_toUnsigned fits]

/-- The offsets of a chain, whatever their signs. -/
theorem parseOffsets_formatOffsets {offsets : List Int}
    (fits : ∀ offset ∈ offsets, IsPtrdiff offset) :
    parseOffsets (formatOffsets offsets) = some offsets := by
  have parts : pieces ',' (formatOffsets offsets) =
      offsets.map fun offset => hex (toUnsigned offset) := by
    refine pieces_intercalate fun part inside => ?_
    obtain ⟨offset, _, rfl⟩ := List.mem_map.mp inside
    exact ⟨fun comma => absurd (hex_digits _ _ comma) (by decide), Nat.toDigits_ne_nil⟩
  rw [parseOffsets, parts]
  clear parts
  induction offsets with
  | nil => rfl
  | cons offset rest ih =>
      have later := ih fun offset inRest => fits offset (List.mem_cons_of_mem _ inRest)
      rw [List.map_cons, List.mapM_cons, parseOffset_hex (fits offset List.mem_cons_self), later]
      rfl

theorem formatOffsets_plain (offsets : List Int) : ∀ c ∈ formatOffsets offsets, Plain c := by
  induction offsets with
  | nil => exact fun _ inside => absurd inside List.not_mem_nil
  | cons offset rest ih =>
      cases rest with
      | nil =>
          rw [formatOffsets, List.map_cons, List.map_nil, List.intercalate_singleton]
          exact hex_plain _
      | cons next rest =>
          intro c inside
          rw [formatOffsets, List.map_cons, List.map_cons, List.intercalate_cons_cons,
            List.append_assoc, List.singleton_append] at inside
          rcases List.mem_append.mp inside with first | later
          · exact hex_plain _ c first
          · rcases List.mem_cons.mp later with rfl | later
            · decide
            · exact ih c later

theorem upperDigit_facts : ∀ digit < 16, digitValue (upperDigit digit) = digit ∧
    isHexDigit (upperDigit digit) = true := by
  decide

/-- The two digits of a byte. -/
theorem byteOfDigits_upperDigit (byte : UInt8) :
    byteOfDigits (upperDigit (byte.toNat / 16)) (upperDigit (byte.toNat % 16)) = byte := by
  have bound := byte.toNat_lt
  have high := (upperDigit_facts (byte.toNat / 16) (by omega)).1
  have low := (upperDigit_facts (byte.toNat % 16) (by omega)).1
  have whole : byte.toNat / 16 * 16 + byte.toNat % 16 = byte.toNat := by omega
  rw [byteOfDigits, high, low, whole, UInt8.ofNat_toNat]

theorem bytesToHex_cons (byte : UInt8) (bytes : List UInt8) :
    bytesToHex (byte :: bytes) false =
      upperDigit (byte.toNat / 16) :: upperDigit (byte.toNat % 16) :: bytesToHex bytes false :=
  rfl

theorem bytesToHex_digits (bytes : List UInt8) :
    ∀ c ∈ bytesToHex bytes false, isHexDigit c = true := by
  induction bytes with
  | nil => exact fun _ inside => absurd inside List.not_mem_nil
  | cons byte bytes ih =>
      have bound := byte.toNat_lt
      intro c inside
      rw [bytesToHex_cons] at inside
      rcases List.mem_cons.mp inside with rfl | inside
      · exact (upperDigit_facts _ (by omega)).2
      · rcases List.mem_cons.mp inside with rfl | inside
        · exact (upperDigit_facts _ (by omega)).2
        · exact ih c inside

/-- Bytes written as digits are read back. -/
theorem parseHexBytes_bytesToHex (bytes : List UInt8) :
    parseHexBytes (bytesToHex bytes false) = bytes := by
  have pairs : (bytesToHex bytes false).length % 2 = 0 ∧
      bytePairs (bytesToHex bytes false) = bytes := by
    induction bytes with
    | nil => exact ⟨rfl, rfl⟩
    | cons byte bytes ih =>
        rw [bytesToHex_cons, bytePairs, byteOfDigits_upperDigit, ih.2]
        refine ⟨?_, rfl⟩
        have even := ih.1
        simp only [List.length_cons]
        omega
  have kept : (bytesToHex bytes false).filter isHexDigit = bytesToHex bytes false :=
    List.filter_eq_self.mpr (bytesToHex_digits bytes)
  rw [parseHexBytes, kept]
  simp only [pairs.1, bne_self_eq_false, Bool.false_eq_true, ↓reduceIte, pairs.2]

theorem valueTypeName_plain (type : ValueType) : ∀ c ∈ valueTypeName type, Plain c := by
  have every : (valueTypeName type).all (fun c => decide (Plain c)) = true := by
    cases type <;> rfl
  exact fun c inside => of_decide_eq_true (List.all_eq_true.mp every c inside)

end PointerLab.ProjectStore
