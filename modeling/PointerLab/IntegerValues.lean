import PointerLab.MachineIntegers
import PointerLab.MemoryScanner

set_option autoImplicit false

/- The eight integer types of `domain/Domain.h` as types of C++, and the integers that bytes
in memory are for them. -/
namespace PointerLab.Domain

open MachineIntegers MemoryScanner

def isSignedType : ValueType → Bool
  | .int8 | .int16 | .int32 | .int64 => true
  | _ => false

def isIntegerType : ValueType → Bool
  | .int8 | .uInt8 | .int16 | .uInt16 | .int32 | .uInt32 | .int64 | .uInt64 => true
  | _ => false

/-- `std::int8_t` and the others. -/
def intType (type : ValueType) : IntType := ⟨8 * valueTypeSize type, isSignedType type⟩

variable {type : ValueType}

theorem valueTypeSize_pos (integer : isIntegerType type = true) : 0 < valueTypeSize type := by
  cases type <;> simp_all [isIntegerType, valueTypeSize]

theorem intType_wide (integer : isIntegerType type = true) : 0 < (intType type).bits := by
  have positive := valueTypeSize_pos integer
  show 0 < 8 * valueTypeSize type
  omega

theorem pow_bytes (count : Nat) : 256 ^ count = 2 ^ (8 * count) := by
  rw [Nat.pow_mul]

theorem littleEndian_lt (bytes : List UInt8) : littleEndian bytes < 256 ^ bytes.length := by
  induction bytes with
  | nil => exact Nat.zero_lt_one
  | cons byte rest ih =>
      have small := byte.toNat_lt
      show byte.toNat + 256 * littleEndian rest < 256 ^ (rest.length + 1)
      rw [Nat.pow_succ]
      omega

theorem littleEndian_lt_bits {bytes : List UInt8} (length : bytes.length = valueTypeSize type) :
    littleEndian bytes < 2 ^ (intType type).bits := by
  have below := littleEndian_lt bytes
  rwa [length, pow_bytes] at below

theorem integerValue_signed (signed : isSignedType type = true) (bytes : List UInt8) :
    integerValue type bytes =
      (BitVec.ofNat (8 * valueTypeSize type) (littleEndian bytes)).toInt := by
  cases type <;> first | rfl | contradiction

theorem integerValue_unsigned (unsigned : isSignedType type = false) (bytes : List UInt8) :
    integerValue type bytes = littleEndian bytes := by
  cases type <;> first | rfl | contradiction

/-- A stored integer is the cast of the unsigned one that its bytes are. -/
theorem integerValue_eq {bytes : List UInt8} (length : bytes.length = valueTypeSize type) :
    integerValue type bytes = (intType type).cast (littleEndian bytes) := by
  cases signed : isSignedType type with
  | true =>
      rw [integerValue_signed signed, BitVec.toInt_ofNat']
      simp only [IntType.cast, intType, signed, ↓reduceIte]
  | false =>
      have below := littleEndian_lt_bits length
      rw [integerValue_unsigned signed]
      simp only [IntType.cast, signed, intType, Bool.false_eq_true, ↓reduceIte]
      exact_mod_cast (Nat.mod_eq_of_lt below).symm

/-- An integer of the type, whatever the bytes. -/
theorem integerValue_holds (integer : isIntegerType type = true) {bytes : List UInt8}
    (length : bytes.length = valueTypeSize type) :
    (intType type).Holds (integerValue type bytes) := by
  rw [integerValue_eq length]
  exact IntType.holds_cast (intType_wide integer) _

theorem integerValue_modEq {bytes : List UInt8}
    (length : bytes.length = valueTypeSize type) :
    integerValue type bytes ≡ littleEndian bytes [ZMOD 2 ^ (intType type).bits] := by
  rw [integerValue_eq length]
  exact IntType.cast_modEq _

/-- Bytes of the type's width are told apart by the integers that they are. -/
theorem integerValue_injective {left right : List UInt8}
    (leftLength : left.length = valueTypeSize type) (rightLength : right.length = valueTypeSize type)
    (same : integerValue type left = integerValue type right) : left = right := by
  rw [integerValue_eq leftLength, integerValue_eq rightLength,
    IntType.cast_eq_cast_iff] at same
  apply littleEndian_injective (leftLength.trans rightLength.symm)
  have residues : (littleEndian left : Int) % 2 ^ (intType type).bits =
      littleEndian right % 2 ^ (intType type).bits := same
  have naturals : littleEndian left % 2 ^ (intType type).bits =
      littleEndian right % 2 ^ (intType type).bits := by
    exact_mod_cast residues
  rwa [Nat.mod_eq_of_lt (littleEndian_lt_bits leftLength),
    Nat.mod_eq_of_lt (littleEndian_lt_bits rightLength)] at naturals

end PointerLab.Domain
