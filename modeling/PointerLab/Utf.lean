import Mathlib.Data.List.Basic

set_option autoImplicit false

/- Characters as UTF-16 units and as UTF-8 bytes, and back. An unpaired surrogate is read as
the replacement character. -/
namespace Utf

def isHigh (unit : UInt16) : Bool := 0xD800 ≤ unit && unit < 0xDC00

def isLow (unit : UInt16) : Bool := 0xDC00 ≤ unit && unit < 0xE000

def isSurrogate (unit : UInt16) : Bool := isHigh unit || isLow unit

/-- The units of a character. -/
def units (c : Char) : List UInt16 :=
  if c.toNat < 0x10000 then [UInt16.ofNat c.toNat]
  else
    [UInt16.ofNat (0xD800 + (c.toNat - 0x10000) / 0x400),
      UInt16.ofNat (0xDC00 + (c.toNat - 0x10000) % 0x400)]

def encode16 (text : List Char) : List UInt16 := text.flatMap units

def paired (high low : UInt16) : Char :=
  Char.ofNat (0x10000 + (high.toNat - 0xD800) * 0x400 + (low.toNat - 0xDC00))

def single (unit : UInt16) : Char :=
  if isSurrogate unit then Char.ofNat 0xFFFD else Char.ofNat unit.toNat

def decode16 : List UInt16 → List Char
  | high :: low :: rest =>
      if isHigh high && isLow low then paired high low :: decode16 rest
      else single high :: decode16 (low :: rest)
  | [unit] => [single unit]
  | [] => []

/-- Every surrogate is half of a pair. -/
def wellFormed : List UInt16 → Bool
  | high :: low :: rest =>
      if isHigh high && isLow low then wellFormed rest
      else !isSurrogate high && wellFormed (low :: rest)
  | [unit] => !isSurrogate unit
  | [] => true

def encode8 (text : List Char) : List UInt8 := text.flatMap String.utf8EncodeChar

def decode8 (bytes : List UInt8) : Option (List Char) :=
  bytes.toByteArray.utf8Decode?.map Array.toList

@[simp] theorem decode8_encode8 (text : List Char) : decode8 (encode8 text) = some text := by
  have same : (encode8 text).toByteArray = text.utf8Encode := rfl
  rw [decode8, same, List.utf8Decode?_utf8Encode]
  rfl

theorem isHigh_iff {unit : UInt16} :
    isHigh unit = true ↔ 0xD800 ≤ unit.toNat ∧ unit.toNat < 0xDC00 := by
  simp only [isHigh, Bool.and_eq_true, decide_eq_true_eq, UInt16.le_iff_toNat_le,
    UInt16.lt_iff_toNat_lt]
  exact Iff.rfl

theorem isLow_iff {unit : UInt16} :
    isLow unit = true ↔ 0xDC00 ≤ unit.toNat ∧ unit.toNat < 0xE000 := by
  simp only [isLow, Bool.and_eq_true, decide_eq_true_eq, UInt16.le_iff_toNat_le,
    UInt16.lt_iff_toNat_lt]
  exact Iff.rfl

theorem isSurrogate_iff {unit : UInt16} :
    isSurrogate unit = true ↔ 0xD800 ≤ unit.toNat ∧ unit.toNat < 0xE000 := by
  rw [isSurrogate, Bool.or_eq_true, isHigh_iff, isLow_iff]
  omega

theorem char_bounds (c : Char) : c.toNat < 0xD800 ∨ 0xDFFF < c.toNat ∧ c.toNat < 0x110000 :=
  c.valid

theorem toNat_ofNat {number : Nat}
    (valid : number < 0xD800 ∨ 0xDFFF < number ∧ number < 0x110000) :
    (Char.ofNat number).toNat = number := by
  have isChar : number.isValidChar := valid
  unfold Char.ofNat
  rw [dif_pos isChar]
  rfl

/-- A character is one unit that is no surrogate, or a pair. -/
theorem units_cases (c : Char) :
    (∃ unit, units c = [unit] ∧ isSurrogate unit = false ∧ unit.toNat = c.toNat) ∨
      ∃ high low, units c = [high, low] ∧ isHigh high = true ∧ isLow low = true ∧
        paired high low = c ∧ 0x10000 ≤ c.toNat := by
  have bounds := char_bounds c
  unfold units
  split
  · rename_i small
    have number : (UInt16.ofNat c.toNat).toNat = c.toNat := by
      rw [UInt16.toNat_ofNat']
      omega
    refine Or.inl ⟨_, rfl, ?_, number⟩
    rw [Bool.eq_false_iff, ne_eq, isSurrogate_iff, number]
    omega
  · rename_i large
    have high : (UInt16.ofNat (0xD800 + (c.toNat - 0x10000) / 0x400)).toNat =
        0xD800 + (c.toNat - 0x10000) / 0x400 := by
      rw [UInt16.toNat_ofNat']
      omega
    have low : (UInt16.ofNat (0xDC00 + (c.toNat - 0x10000) % 0x400)).toNat =
        0xDC00 + (c.toNat - 0x10000) % 0x400 := by
      rw [UInt16.toNat_ofNat']
      omega
    refine Or.inr ⟨_, _, rfl, ?_, ?_, ?_, Nat.le_of_not_lt large⟩
    · rw [isHigh_iff, high]
      omega
    · rw [isLow_iff, low]
      omega
    · have whole : 0x10000 + (0xD800 + (c.toNat - 0x10000) / 0x400 - 0xD800) * 0x400 +
          (0xDC00 + (c.toNat - 0x10000) % 0x400 - 0xDC00) = c.toNat := by
        omega
      rw [paired, high, low, whole, Char.ofNat_toNat]

theorem units_single {unit : UInt16} (plain : isSurrogate unit = false) :
    units (single unit) = [unit] := by
  have outside : ¬ (0xD800 ≤ unit.toNat ∧ unit.toNat < 0xE000) := by
    rw [← isSurrogate_iff, plain]
    exact Bool.false_ne_true
  have small := unit.toNat_lt
  have number : (Char.ofNat unit.toNat).toNat = unit.toNat := by
    apply toNat_ofNat
    omega
  unfold single units
  rw [plain, if_neg Bool.false_ne_true, number, if_pos small, UInt16.ofNat_toNat]

theorem units_paired {high low : UInt16} (isHigh : isHigh high = true) (isLow : isLow low = true) :
    units (paired high low) = [high, low] := by
  rw [isHigh_iff] at isHigh
  rw [isLow_iff] at isLow
  have number : (paired high low).toNat =
      0x10000 + (high.toNat - 0xD800) * 0x400 + (low.toNat - 0xDC00) := by
    apply toNat_ofNat
    omega
  have first : 0xD800 + (0x10000 + (high.toNat - 0xD800) * 0x400 + (low.toNat - 0xDC00) - 0x10000) /
      0x400 = high.toNat := by omega
  have second : 0xDC00 + (0x10000 + (high.toNat - 0xD800) * 0x400 + (low.toNat - 0xDC00) -
      0x10000) % 0x400 = low.toNat := by omega
  unfold units
  rw [number, if_neg (by omega), first, second, UInt16.ofNat_toNat, UInt16.ofNat_toNat]

theorem not_isHigh_of_plain {unit : UInt16} (plain : isSurrogate unit = false) :
    isHigh unit = false :=
  (Bool.or_eq_false_iff.mp plain).1

theorem decode16_plain {unit : UInt16} (plain : isSurrogate unit = false) (rest : List UInt16) :
    decode16 (unit :: rest) = single unit :: decode16 rest := by
  cases rest with
  | nil => rfl
  | cons low rest =>
      rw [decode16, not_isHigh_of_plain plain, Bool.false_and, if_neg Bool.false_ne_true]

theorem wellFormed_plain {unit : UInt16} (plain : isSurrogate unit = false) (rest : List UInt16) :
    wellFormed (unit :: rest) = wellFormed rest := by
  cases rest with
  | nil => rw [wellFormed, plain]; rfl
  | cons low rest =>
      rw [wellFormed, not_isHigh_of_plain plain, Bool.false_and, if_neg Bool.false_ne_true, plain,
        Bool.not_false, Bool.true_and]

/-- Characters are read back from their units. -/
@[simp] theorem decode16_encode16 (text : List Char) : decode16 (encode16 text) = text := by
  induction text with
  | nil => rfl
  | cons c rest ih =>
      have whole : encode16 (c :: rest) = units c ++ encode16 rest := rfl
      rw [whole]
      rcases units_cases c with ⟨unit, one, plain, number⟩ | ⟨high, low, two, isHigh, isLow, same, _⟩
      · have same : single unit = c := by
          rw [single, plain, if_neg Bool.false_ne_true, number, Char.ofNat_toNat]
        rw [one, List.singleton_append, decode16_plain plain, ih, same]
      · rw [two, List.cons_append, List.singleton_append, decode16, isHigh, isLow, Bool.and_self,
          if_pos rfl, ih, same]

theorem wellFormed_encode16 (text : List Char) : wellFormed (encode16 text) = true := by
  induction text with
  | nil => rfl
  | cons c rest ih =>
      have whole : encode16 (c :: rest) = units c ++ encode16 rest := rfl
      rw [whole]
      rcases units_cases c with ⟨unit, one, plain, _⟩ | ⟨high, low, two, isHigh, isLow, _⟩
      · rw [one, List.singleton_append, wellFormed_plain plain]
        exact ih
      · rw [two, List.cons_append, List.singleton_append, wellFormed, isHigh, isLow, Bool.and_self,
          if_pos rfl]
        exact ih

/-- Well-formed units are read without loss. -/
theorem encode16_decode16 {text : List UInt16} (formed : wellFormed text = true) :
    encode16 (decode16 text) = text := by
  induction text using decode16.induct with
  | case1 high low rest pair ih =>
      rw [wellFormed, if_pos pair] at formed
      rw [Bool.and_eq_true] at pair
      have whole : encode16 (paired high low :: decode16 rest) =
          units (paired high low) ++ encode16 (decode16 rest) := rfl
      rw [decode16, if_pos (Bool.and_eq_true _ _ ▸ pair), whole, units_paired pair.1 pair.2,
        ih formed]
      rfl
  | case2 high low rest unpaired ih =>
      rw [wellFormed, if_neg unpaired, Bool.and_eq_true, Bool.not_eq_true'] at formed
      have whole : encode16 (single high :: decode16 (low :: rest)) =
          units (single high) ++ encode16 (decode16 (low :: rest)) := rfl
      rw [decode16, if_neg unpaired, whole, units_single formed.1, ih formed.2]
      rfl
  | case3 unit =>
      rw [wellFormed, Bool.not_eq_true'] at formed
      show units (single unit) ++ [] = [unit]
      rw [units_single formed, List.append_nil]
  | case4 => rfl

/-- An ASCII character is one byte, any other is bytes above ASCII. -/
theorem utf8EncodeChar_cases (c : Char) :
    (c.toNat < 0x80 ∧ String.utf8EncodeChar c = [UInt8.ofNat c.toNat]) ∨
      0x80 ≤ c.toNat ∧ ∀ byte ∈ String.utf8EncodeChar c, 0x80 ≤ byte.toNat := by
  have bounds := char_bounds c
  have same : c.val.toNat = c.toNat := rfl
  unfold String.utf8EncodeChar
  rw [same]
  by_cases small : c.toNat ≤ 0x7F
  · exact Or.inl ⟨by omega, if_pos small⟩
  · refine Or.inr ⟨by omega, ?_⟩
    rw [if_neg small]
    split
    · simp only [List.mem_cons, List.not_mem_nil, or_false, forall_eq_or_imp, forall_eq,
        UInt8.toNat_ofNat']
      omega
    · split
      · simp only [List.mem_cons, List.not_mem_nil, or_false, forall_eq_or_imp, forall_eq,
          UInt8.toNat_ofNat']
        omega
      · simp only [List.mem_cons, List.not_mem_nil, or_false, forall_eq_or_imp, forall_eq,
          UInt8.toNat_ofNat']
        omega

end Utf
