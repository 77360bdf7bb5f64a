import PointerLab.CNumbers
import PointerLab.IntegerValues
import PointerLab.ProjectStore
import PointerLab.ScriptText
import PointerLab.Utf

set_option autoImplicit false

/- `parseScanValue` and `formatValue` of `domain/Domain.cpp`: the text of a value, read and
written, and which texts the integer types read as what they say. -/
namespace PointerLab.Domain

open CNumbers MachineIntegers MemoryScanner AutoAssembler
open ProjectStore (Conversion widen narrow)

/-- What the C library makes of floating-point numbers. -/
structure FloatText where
  /-- The bytes of `std::stof`; nothing where it throws. -/
  stof : Text → Option (List UInt8)
  stod : Text → Option (List UInt8)
  /-- `"%g"` -/
  general : ValueType → List UInt8 → Text

/-- The bytes of a value of an integer type. -/
def pack (type : ValueType) (value : Int) : List UInt8 :=
  littleEndianBytes (valueTypeSize type) (value % 2 ^ (intType type).bits).toNat

/-- The bytes of a text. -/
def textBytes (text : Text) : List UInt8 := text.map fun c => UInt8.ofNat c.toNat

/-- A text of bytes. -/
def bytesText (bytes : List UInt8) : Text := bytes.map fun byte => Char.ofNat byte.toNat

/-- The bytes of UTF-16 units in memory. -/
def wideBytes (text : WideText) : List UInt8 :=
  text.flatMap fun unit => [UInt8.ofNat (unit.toNat % 256), UInt8.ofNat (unit.toNat / 256)]

/-- The units that bytes in memory are, a last odd byte left out. -/
def wideOfBytes : List UInt8 → WideText
  | low :: high :: rest => UInt16.ofNat (low.toNat + 256 * high.toNat) :: wideOfBytes rest
  | _ => []

/-- `std::isprint` in the C locale. -/
def isPrint (byte : UInt8) : Bool := 0x20 ≤ byte && byte ≤ 0x7E

/-- `std::to_chars` of an integer. -/
def integerText (value : Int) : Text :=
  if value < 0 then '-' :: Nat.toDigits 10 value.natAbs else Nat.toDigits 10 value.toNat

variable (floats : FloatText) (api : Conversion)

/-- The bytes of a value and their mask. -/
def scanBytes (type : ValueType) (text : Text) : Option (List UInt8 × List UInt8) :=
  match type with
  | .int8 | .int16 | .int32 | .int64 =>
      (stoll isSpace text).map fun value => (pack type ((intType type).cast value), [])
  | .uInt8 | .uInt16 | .uInt32 | .uInt64 =>
      (stoull isSpace text).map fun (value : Nat) => (pack type ((intType type).cast value), [])
  | .float => (floats.stof text).map fun bytes => (bytes, [])
  | .double => (floats.stod text).map fun bytes => (bytes, [])
  | .bytes => (parseHexPattern text).map fun pattern => (pattern.bytes, pattern.mask)
  | .stringAscii => some (textBytes text, [])
  | .stringUtf16 => some (wideBytes (widen api text), [])

def parseScanValue (type : ValueType) (text : Text) : Option ScanValue :=
  match scanBytes floats api type text with
  | none => none
  | some (bytes, mask) => if bytes.isEmpty then none else some { type, bytes, mask, text }

/-- A buffer too short for the type has an empty text. -/
def formatValue (type : ValueType) (bytes : List UInt8) : Text :=
  match type with
  | .bytes => bytesToHex bytes
  | .stringAscii => bytes.map fun byte => if isPrint byte then Char.ofNat byte.toNat else '.'
  | .stringUtf16 =>
      (narrow api (wideOfBytes bytes)).map fun c => if c.toNat < 0x20 then '.' else c
  | .float | .double =>
      if bytes.length < valueTypeSize type then []
      else floats.general type (bytes.take (valueTypeSize type))
  | _ =>
      if bytes.length < valueTypeSize type then []
      else integerText (integerValue type (bytes.take (valueTypeSize type)))

/-- The type reads the text as what it says in decimal: its bytes where it is an integer of the
type, and nothing else. -/
def ReadsDecimal (type : ValueType) (text : Text) : Prop :=
  (parseScanValue floats api type text).map (·.bytes) =
    ((wholeDecimal isSpace text).filter fun value => (intType type).Holds value).map (pack type)

/-- No 64-bit parser takes the number at the start of the text. -/
def beyond64 (type : ValueType) (text : Text) : Bool :=
  if isSignedType type then
    (decimal isSpace text).value < -2 ^ 63 || 2 ^ 63 ≤ (decimal isSpace text).value
  else 2 ^ 64 ≤ (prefixed isSpace text).magnitude

/-- There is no number at the start of the text, or none of 64 bits. Or it is an integer of the
type with nothing but white space behind it, and under eight where an unsigned type is given a
leading zero. -/
def Decided (type : ValueType) (text : Text) : Prop :=
  let numeral := decimal isSpace text
  numeral.digits = [] ∨ beyond64 type text = true ∨
    numeral.rest.all isSpace = true ∧ (intType type).Holds numeral.value ∧
      (isSignedType type = false → numeral.digits.head? = some '0' → numeral.value < 8)

instance (type : ValueType) (text : Text) : Decidable (Decided type text) := by
  unfold Decided
  infer_instance

variable {floats} {api} {type : ValueType} {text : Text}

theorem littleEndianBytes_length (width number : Nat) :
    (littleEndianBytes width number).length = width := by
  induction width generalizing number with
  | zero => rfl
  | succ width ih => exact congrArg Nat.succ (ih (number / 256))

theorem littleEndian_littleEndianBytes (width number : Nat) :
    littleEndian (littleEndianBytes width number) = number % 256 ^ width := by
  induction width generalizing number with
  | zero => exact (Nat.mod_one number).symm
  | succ width ih =>
      have low : (UInt8.ofNat (number % 256)).toNat = number % 256 := by
        rw [UInt8.toNat_ofNat']
        omega
      show (UInt8.ofNat (number % 256)).toNat +
        256 * littleEndian (littleEndianBytes width (number / 256)) = _
      rw [ih, low, Nat.pow_succ, Nat.mul_comm (256 ^ width), Nat.mod_mul]

theorem pack_length (value : Int) : (pack type value).length = valueTypeSize type :=
  littleEndianBytes_length _ _

theorem littleEndian_pack (value : Int) :
    (littleEndian (pack type value) : Int) = value % 2 ^ (intType type).bits := by
  have positive : (0 : Int) < 2 ^ (intType type).bits := Int.pow_pos (by decide)
  have residue := Int.emod_nonneg value (Int.ne_of_gt positive)
  have below := Int.emod_lt_of_pos value positive
  have power : 256 ^ valueTypeSize type = 2 ^ (intType type).bits := pow_bytes _
  have cast : ((2 ^ (intType type).bits : Nat) : Int) = 2 ^ (intType type).bits := by
    push_cast
    rfl
  unfold pack
  rw [littleEndian_littleEndianBytes, power, Nat.mod_eq_of_lt (by omega)]
  exact Int.toNat_of_nonneg residue

/-- The bytes keep the residue of a value and nothing else. -/
theorem pack_eq_pack_iff {left right : Int} :
    pack type left = pack type right ↔ left ≡ right [ZMOD 2 ^ (intType type).bits] := by
  constructor
  · intro same
    have residues := congrArg (fun bytes => (littleEndian bytes : Int)) same
    simp only [littleEndian_pack] at residues
    exact residues
  · intro same
    unfold pack
    rw [same]

theorem pack_cast (value : Int) : pack type ((intType type).cast value) = pack type value :=
  pack_eq_pack_iff.mpr (IntType.cast_modEq value)

/-- The 64-bit integer that the parser of the type finds. -/
def readInteger (type : ValueType) (text : Text) : Option Int :=
  if isSignedType type then stoll isSpace text else (stoull isSpace text).map Int.ofNat

theorem parseScanValue_integer (integer : isIntegerType type = true) :
    (parseScanValue floats api type text).map (·.bytes) =
      (readInteger type text).map (pack type) := by
  have found : scanBytes floats api type text =
      (readInteger type text).map fun value => (pack type value, []) := by
    cases type with
    | int8 | int16 | int32 | int64 =>
        simp only [scanBytes, readInteger, isSignedType, ↓reduceIte, pack_cast]
    | uInt8 | uInt16 | uInt32 | uInt64 =>
        simp only [scanBytes, readInteger, isSignedType, Bool.false_eq_true, ↓reduceIte, pack_cast,
          Option.map_map]
        rfl
    | float | double | bytes | stringAscii | stringUtf16 => contradiction
  unfold parseScanValue
  rw [found]
  cases readInteger type text with
  | none => rfl
  | some value =>
      have wide := valueTypeSize_pos integer
      have length := @pack_length type value
      have nonempty : (pack type value).isEmpty = false := by
        rw [List.isEmpty_eq_false_iff]
        exact List.ne_nil_of_length_pos (by omega)
      simp only [Option.map_some, nonempty, Bool.false_eq_true, ↓reduceIte]

theorem bits_le (integer : isIntegerType type = true) : (intType type).bits ≤ 64 := by
  cases type <;> first | contradiction | decide

/-- What the integers of a type are, in 64 bits. -/
theorem holds_64 (integer : isIntegerType type = true) {value : Int}
    (holds : (intType type).Holds value) :
    if isSignedType type then -2 ^ 63 ≤ value ∧ value < 2 ^ 63
    else 0 ≤ value ∧ value < 2 ^ (intType type).bits ∧ value < 2 ^ 64 := by
  have few := bits_le integer
  have whole : (2 : Int) ^ (intType type).bits ≤ 2 ^ 64 := by
    exact_mod_cast Nat.pow_le_pow_right (by decide) few
  have half : (2 : Int) ^ ((intType type).bits - 1) ≤ 2 ^ 63 := by
    exact_mod_cast Nat.pow_le_pow_right (by decide) (by omega)
  have sign : (intType type).signed = isSignedType type := rfl
  unfold IntType.Holds at holds
  rw [sign] at holds
  split
  · rename_i signed
    rw [if_pos signed] at holds
    omega
  · rename_i unsigned
    rw [if_neg unsigned] at holds
    omega

theorem readInteger_eq (type : ValueType) (text : Text) :
    readInteger type text =
      if (decimal isSpace text).digits = [] ∨ beyond64 type text = true then none
      else some (if isSignedType type then (decimal isSpace text).value
        else (prefixed isSpace text).value % 2 ^ 64) := by
  unfold readInteger beyond64
  split
  · simp only [stoll, Bool.or_eq_true, List.isEmpty_iff, decide_eq_true_eq, or_assoc]
  · have digits : (prefixed isSpace text).digits = [] ↔ (decimal isSpace text).digits = [] := by
      rcases prefixed_cases text with ⟨_, same⟩ | ⟨zero, some_, _⟩
      · rw [same]
      · refine iff_of_false some_ fun empty => ?_
        rw [empty] at zero
        contradiction
    have residue := Int.emod_nonneg (prefixed isSpace text).value (by decide : (2 : Int) ^ 64 ≠ 0)
    simp only [stoull, Bool.or_eq_true, List.isEmpty_iff, decide_eq_true_eq, digits]
    split
    · rfl
    · exact congrArg some (Int.toNat_of_nonneg residue)

/-- What the whole text says is the number at its start. -/
theorem wholeDecimal_filter (some_ : (decimal isSpace text).digits ≠ []) :
    (wholeDecimal isSpace text).filter (fun value => (intType type).Holds value) =
      if (decimal isSpace text).rest.all isSpace = true ∧
          (intType type).Holds (decimal isSpace text).value then
        some (decimal isSpace text).value
      else none := by
  have blank : (decimal isSpace text).rest.any (!isSpace ·) =
      !(decimal isSpace text).rest.all isSpace := by
    rw [List.not_all_eq_any_not]
  simp only [wholeDecimal, blank, Bool.or_eq_true, List.isEmpty_iff, some_, false_or,
    Bool.not_eq_true']
  cases (decimal isSpace text).rest.all isSpace with
  | false => rfl
  | true => simp only [Bool.true_eq_false, ↓reduceIte, Option.filter_some, decide_eq_true_eq,
      true_and]

/-- A number that no parser takes is no integer of the type. -/
theorem not_holds_beyond64 (integer : isIntegerType type = true)
    (beyond : beyond64 type text = true) (blank : (decimal isSpace text).rest.all isSpace = true) :
    ¬ (intType type).Holds (decimal isSpace text).value := by
  intro holds
  have within := holds_64 integer holds
  unfold beyond64 at beyond
  split at beyond
  · rename_i signed
    rw [if_pos signed] at within
    simp only [Bool.or_eq_true, decide_eq_true_eq] at beyond
    omega
  · rename_i unsigned
    rw [if_neg unsigned] at within
    simp only [decide_eq_true_eq] at beyond
    have magnitude : (prefixed isSpace text).magnitude ≤ (decimal isSpace text).magnitude := by
      rcases prefixed_cases text with ⟨_, same⟩ | ⟨_, _, _, ⟨below, _⟩ | ⟨x, inRest, isX⟩⟩
      · rw [same]
      · exact below
      · have space := List.all_eq_true.mp blank x inRest
        rcases isX with rfl | rfl <;> contradiction
    unfold Numeral.value at within
    split at within <;> omega

/-- Where an unsigned type reads a number of its own, what it reads in octal is smaller. -/
theorem pack_prefixed (integer : isIntegerType type = true) (unsigned : isSignedType type = false)
    (blank : (decimal isSpace text).rest.all isSpace = true)
    (holds : (intType type).Holds (decimal isSpace text).value) :
    pack type ((prefixed isSpace text).value % 2 ^ 64) = pack type (decimal isSpace text).value ↔
      ((decimal isSpace text).digits.head? = some '0' → (decimal isSpace text).value < 8) := by
  have within := holds_64 integer holds
  rw [unsigned, if_neg Bool.false_ne_true] at within
  obtain ⟨rest, more⟩ := Nat.exists_eq_add_of_le (bits_le integer)
  have divides : (2 : Int) ^ (intType type).bits ∣ 2 ^ 64 := by
    rw [more, Int.pow_add]
    exact Int.dvd_mul_right _ _
  have reduced : (prefixed isSpace text).value % 2 ^ 64 ≡ (prefixed isSpace text).value
      [ZMOD 2 ^ (intType type).bits] := Int.emod_emod_of_dvd _ divides
  rw [pack_eq_pack_iff]
  rcases prefixed_cases text with ⟨first, same⟩ | ⟨zero, _, negative, ⟨below, equal⟩ | ⟨x, inRest, isX⟩⟩
  · rw [same] at reduced ⊢
    exact iff_of_true reduced fun zero => absurd zero first
  · have octal : (prefixed isSpace text).value ≡ (decimal isSpace text).value
        [ZMOD 2 ^ (intType type).bits] ↔
        (prefixed isSpace text).value = (decimal isSpace text).value := by
      refine ⟨fun residues => ?_, fun same => same ▸ rfl⟩
      have left : 0 ≤ (prefixed isSpace text).value ∧
          (prefixed isSpace text).value < 2 ^ (intType type).bits := by
        unfold Numeral.value at within ⊢
        rw [negative]
        split at within <;> simp_all only [↓reduceIte, Bool.false_eq_true] <;> omega
      have residue : (prefixed isSpace text).value % _ = (decimal isSpace text).value % _ := residues
      rwa [Int.emod_eq_of_lt left.1 left.2, Int.emod_eq_of_lt within.1 within.2.1] at residue
    refine ⟨fun residues _ => ?_, fun small => reduced.trans (octal.mpr ?_)⟩
    · have same := octal.mp (reduced.symm.trans residues)
      unfold Numeral.value at same within ⊢
      rw [negative] at same
      split at same <;> simp_all only [↓reduceIte, Bool.false_eq_true] <;> omega
    · have few := small zero
      unfold Numeral.value at few within ⊢
      rw [negative]
      split at few <;> simp_all only [↓reduceIte, Bool.false_eq_true] <;> omega
  · have space := List.all_eq_true.mp blank x inRest
    rcases isX with rfl | rfl <;> contradiction

/-- Exactly which texts an integer type reads as what they say. -/
theorem readsDecimal_iff (floats : FloatText) (api : Conversion) (type : ValueType) (text : Text)
    (integer : isIntegerType type = true) :
    ReadsDecimal floats api type text ↔ Decided type text := by
  unfold ReadsDecimal Decided
  rw [parseScanValue_integer integer, readInteger_eq]
  by_cases none_ : (decimal isSpace text).digits = []
  · have nothing : wholeDecimal isSpace text = none := by
      simp [wholeDecimal, none_]
    rw [if_pos (Or.inl none_), nothing]
    exact iff_of_true rfl (Or.inl none_)
  · rw [wholeDecimal_filter none_]
    by_cases beyond : beyond64 type text = true
    · have refused : ¬ ((decimal isSpace text).rest.all isSpace = true ∧
          (intType type).Holds (decimal isSpace text).value) :=
        fun ⟨blank, holds⟩ => not_holds_beyond64 integer beyond blank holds
      rw [if_pos (Or.inr beyond), if_neg refused]
      exact iff_of_true rfl (Or.inr (Or.inl beyond))
    · have taken : ¬ ((decimal isSpace text).digits = [] ∨ beyond64 type text = true) :=
        not_or.mpr ⟨none_, beyond⟩
      rw [if_neg taken, or_iff_right none_, or_iff_right beyond]
      by_cases said : (decimal isSpace text).rest.all isSpace = true ∧
          (intType type).Holds (decimal isSpace text).value
      · rw [if_pos said, and_iff_right said.1, and_iff_right said.2]
        simp only [Option.map_some, Option.some.injEq]
        cases unsigned : isSignedType type with
        | true => exact iff_of_true rfl fun signed => absurd signed.symm Bool.false_ne_true
        | false =>
            rw [if_neg Bool.false_ne_true, pack_prefixed integer unsigned said.1 said.2]
            exact ⟨fun every _ => every, fun every => every rfl⟩
      · rw [if_neg said]
        exact iff_of_false (by simp) fun decided => said ⟨decided.1, decided.2.1⟩

/-- No text is a floating-point number. -/
def noFloatText : FloatText where
  stof := fun _ => none
  stod := fun _ => none
  general := fun _ _ => []

/-- Conversions that make nothing of what is not UTF-8. -/
def utfConversion : Conversion where
  multiByteToWideChar text :=
    match Utf.decode8 (textBytes (text.takeWhile (· != '\x00'))) with
    | some characters => Utf.encode16 characters
    | none => []
  wideCharToMultiByte text :=
    bytesText (Utf.encode8 (Utf.decode16 (text.takeWhile (· != 0))))

theorem readsDecimal_minus300 :
    ReadsDecimal noFloatText utfConversion .int16 " -300 ".toList :=
  (readsDecimal_iff noFloatText utfConversion .int16 " -300 ".toList rfl).mpr
    (by decide)

/-- No notation serves all types: what "300" is for 16 bits it cannot be for 8. -/
theorem no_notation :
    ¬ ∃ (floats : FloatText) (api : Conversion) (denotes : Text → Option Int),
      ∀ type, isIntegerType type = true → ∀ text,
        (parseScanValue floats api type text).map (·.bytes) =
          ((denotes text).filter fun value => (intType type).Holds value).map (pack type) := by
  rintro ⟨floats, api, denotes, every⟩
  have narrow := every .int8 rfl "300".toList
  have wide := every .int16 rfl "300".toList
  rw [parseScanValue_integer rfl] at narrow wide
  have read (type : ValueType) (signed : isSignedType type = true) :
      readInteger type "300".toList = some 300 := by
    unfold readInteger
    rw [if_pos signed]
    decide
  rw [read _ rfl] at narrow wide
  cases said : denotes "300".toList with
  | none =>
      rw [said] at narrow
      contradiction
  | some value =>
      rw [said, Option.filter_some] at narrow wide
      split at narrow
      · rename_i holds
        split at wide
        · have same := pack_eq_pack_iff.mp (Option.some.inj wide)
          have residues : (300 : Int) % 2 ^ 16 = value % 2 ^ 16 := same
          have small : -2 ^ 7 ≤ value ∧ value < 2 ^ 7 := of_decide_eq_true holds
          omega
        · contradiction
      · contradiction

end PointerLab.Domain
