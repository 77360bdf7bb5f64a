import Mathlib.Data.Int.ModEq

set_option autoImplicit false

/- Integer types of a fixed width, as C++ computes with them: operands are promoted, a signed
result out of range is undefined behaviour, an unsigned one wraps. -/
namespace MachineIntegers

structure IntType where
  bits : Nat
  signed : Bool
  deriving DecidableEq, Repr

namespace IntType

/-- The values that an object of the type can have. -/
def Holds (t : IntType) (value : Int) : Prop :=
  if t.signed then -2 ^ (t.bits - 1) ≤ value ∧ value < 2 ^ (t.bits - 1)
  else 0 ≤ value ∧ value < 2 ^ t.bits

instance (t : IntType) (value : Int) : Decidable (t.Holds value) := by
  unfold Holds
  infer_instance

/-- Integral promotion to a 32-bit `int`. -/
def promoted (t : IntType) : IntType := if t.bits < 32 then ⟨32, true⟩ else t

/-- What arithmetic of the type makes of the exact result, where it is defined. -/
def result (t : IntType) (exact : Int) : Option Int :=
  if t.signed then if t.Holds exact then some exact else none else some (exact % 2 ^ t.bits)

/-- `static_cast` to the type. -/
def cast (t : IntType) (value : Int) : Int :=
  if t.signed then value.bmod (2 ^ t.bits) else value % 2 ^ t.bits

variable {t : IntType} {value other : Int}

theorem two_pow_pred {bits : Nat} (wide : 0 < bits) : (2 : Int) ^ bits = 2 * 2 ^ (bits - 1) := by
  obtain ⟨rest, rfl⟩ := Nat.exists_eq_add_of_lt wide
  rw [Nat.zero_add, Nat.add_sub_cancel, Int.pow_succ, Int.mul_comm]

theorem cast_of_holds (wide : 0 < t.bits) (holds : t.Holds value) : t.cast value = value := by
  have double := two_pow_pred wide
  have power : ((2 ^ t.bits : Nat) : Int) = 2 ^ t.bits := by push_cast; rfl
  unfold Holds at holds
  unfold cast
  split
  · rename_i signed
    rw [if_pos signed] at holds
    apply Int.bmod_eq_of_le_mul_two
    · omega
    · omega
  · rename_i unsigned
    rw [if_neg unsigned] at holds
    exact Int.emod_eq_of_lt holds.1 holds.2

/-- A cast keeps the residue and nothing else. -/
theorem cast_eq_cast_iff : t.cast value = t.cast other ↔ value ≡ other [ZMOD 2 ^ t.bits] := by
  have power : ((2 ^ t.bits : Nat) : Int) = 2 ^ t.bits := by push_cast; rfl
  unfold cast
  split
  · constructor
    · intro same
      have residues := congrArg (· % ((2 ^ t.bits : Nat) : Int)) same
      simp only [Int.bmod_emod] at residues
      rwa [power] at residues
    · intro same
      rw [← Int.emod_bmod value, ← Int.emod_bmod other, power]
      exact congrArg (Int.bmod · _) same
  · exact Iff.rfl

theorem cast_modEq (value : Int) : t.cast value ≡ value [ZMOD 2 ^ t.bits] := by
  have power : ((2 ^ t.bits : Nat) : Int) = 2 ^ t.bits := by push_cast; rfl
  unfold cast
  split
  · rw [← power]
    exact Int.bmod_emod
  · exact Int.mod_modEq _ _

theorem holds_cast (wide : 0 < t.bits) (value : Int) : t.Holds (t.cast value) := by
  have double := two_pow_pred wide
  have power : ((2 ^ t.bits : Nat) : Int) = 2 ^ t.bits := by push_cast; rfl
  have positive : 0 < 2 ^ t.bits := Nat.two_pow_pos t.bits
  unfold Holds cast
  split
  · have low := @Int.le_bmod value (2 ^ t.bits) positive
    have high := @Int.bmod_lt value (2 ^ t.bits) positive
    omega
  · constructor
    · apply Int.emod_nonneg
      omega
    · apply Int.emod_lt_of_pos
      omega

/-- A value of the type is the cast of exactly the integers with its residue. -/
theorem eq_cast_iff (wide : 0 < t.bits) (holds : t.Holds value) :
    value = t.cast other ↔ value ≡ other [ZMOD 2 ^ t.bits] := by
  rw [← cast_eq_cast_iff, cast_of_holds wide holds]

/-- Where arithmetic of the promoted type is defined. -/
theorem result_promoted_ne_none {exact : Int} :
    t.promoted.result exact ≠ none ↔ (t.promoted.signed = true → t.promoted.Holds exact) := by
  unfold result
  split
  · rename_i signed
    split
    · rename_i holds
      exact iff_of_true (by simp) fun _ => holds
    · rename_i outside
      exact iff_of_false (by simp) fun every => outside (every signed)
  · rename_i unsigned
    exact iff_of_true (by simp) fun signed => absurd signed unsigned

/-- What it gives has the residue of the exact result, in the unpromoted type. -/
theorem result_promoted_modEq {exact : Int} (computed : t.promoted.result exact = some value) :
    value ≡ exact [ZMOD 2 ^ t.bits] := by
  unfold result at computed
  split at computed
  · split at computed
    · rw [Option.some.inj computed]
    · contradiction
  · rename_i unsigned
    have unpromoted : t.promoted = t := by
      unfold promoted at unsigned ⊢
      split
      · rename_i narrow
        rw [if_pos narrow] at unsigned
        exact absurd rfl unsigned
      · rfl
    rw [unpromoted] at computed
    rw [← Option.some.inj computed]
    exact Int.mod_modEq _ _

end IntType

end MachineIntegers
