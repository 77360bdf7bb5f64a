import Mathlib.Algebra.Group.Nat.Defs
import Mathlib.Data.Nat.Bitwise

set_option autoImplicit false

/- Machine words rounded to a power of two with a mask, as C code writes it. -/
namespace Alignment

/-- `x & ~(unit - 1)` on words of a width. -/
def alignDown (bits unit x : Nat) : Nat := x &&& (2 ^ bits - unit)

/-- `(x + unit - 1) & ~(unit - 1)`. The sum wraps around. -/
def alignUp (bits unit x : Nat) : Nat := alignDown bits unit ((x + unit - 1) % 2 ^ bits)

variable {bits k x place : Nat}

theorem alignDown_eq (narrow : k ≤ bits) (word : x < 2 ^ bits) :
    alignDown bits (2 ^ k) x = x / 2 ^ k * 2 ^ k := by
  have positive : 0 < 2 ^ k := Nat.two_pow_pos k
  have mask : 2 ^ bits - 2 ^ k = 2 ^ bits - (2 ^ k - 1 + 1) := by omega
  have low : 2 ^ k - 1 < 2 ^ bits := by
    have within : 2 ^ k ≤ 2 ^ bits := Nat.pow_le_pow_right Nat.two_pos narrow
    omega
  rw [alignDown, mask]
  apply Nat.eq_of_testBit_eq
  intro index
  rw [Nat.testBit_and, Nat.testBit_two_pow_sub_succ low, Nat.testBit_two_pow_sub_one,
    Nat.testBit_mul_two_pow, Nat.testBit_div_two_pow]
  by_cases above : k ≤ index
  · by_cases inside : index < bits
    · simp [above, inside, Nat.not_lt_of_le above]
    · have zero : x.testBit index = false := by
        apply Nat.testBit_lt_two_pow
        exact Nat.lt_of_lt_of_le word (Nat.pow_le_pow_right Nat.two_pos (by omega))
      simp [above, inside, zero]
  · simp [above, Nat.lt_of_not_le above]

theorem dvd_alignDown (narrow : k ≤ bits) (word : x < 2 ^ bits) :
    2 ^ k ∣ alignDown bits (2 ^ k) x := by
  rw [alignDown_eq narrow word]
  exact Nat.dvd_mul_left _ _

theorem alignDown_le (narrow : k ≤ bits) (word : x < 2 ^ bits) :
    alignDown bits (2 ^ k) x ≤ x := by
  rw [alignDown_eq narrow word]
  exact Nat.div_mul_le_self x _

theorem lt_alignDown (narrow : k ≤ bits) (word : x < 2 ^ bits) :
    x < alignDown bits (2 ^ k) x + 2 ^ k := by
  rw [alignDown_eq narrow word]
  have rest := Nat.mod_lt x (Nat.two_pow_pos k)
  have parts := Nat.div_add_mod' x (2 ^ k)
  omega

/-- Multiples of a unit that are less than a unit apart are equal. -/
theorem eq_of_dvd {unit first second : Nat} (one : unit ∣ first) (other : unit ∣ second)
    (below : first < second + unit) (above : second < first + unit) : first = second := by
  obtain ⟨m, rfl⟩ := one
  obtain ⟨n, rfl⟩ := other
  rw [← Nat.mul_succ] at below above
  have left : m < n + 1 := Nat.lt_of_mul_lt_mul_left below
  have right : n < m + 1 := Nat.lt_of_mul_lt_mul_left above
  congr 1
  omega

/-- The next multiple of a unit after one of them. -/
theorem add_le_of_dvd {unit first second : Nat} (one : unit ∣ first) (other : unit ∣ second)
    (less : first < second) : first + unit ≤ second := by
  by_contra between
  have equal := eq_of_dvd one other (by omega) (by omega)
  omega

theorem dvd_alignUp (narrow : k ≤ bits) : 2 ^ k ∣ alignUp bits (2 ^ k) x :=
  dvd_alignDown narrow (Nat.mod_lt _ (Nat.two_pow_pos bits))

section Fits

variable (narrow : k ≤ bits) (fits : x + 2 ^ k ≤ 2 ^ bits)
include narrow fits

theorem le_alignUp : x ≤ alignUp bits (2 ^ k) x := by
  have positive : 0 < 2 ^ k := Nat.two_pow_pos k
  have word : x + 2 ^ k - 1 < 2 ^ bits := by omega
  have next := lt_alignDown narrow word
  rw [alignUp, Nat.mod_eq_of_lt word]
  omega

theorem alignUp_lt : alignUp bits (2 ^ k) x < x + 2 ^ k := by
  have positive : 0 < 2 ^ k := Nat.two_pow_pos k
  have word : x + 2 ^ k - 1 < 2 ^ bits := by omega
  have below := alignDown_le narrow word
  rw [alignUp, Nat.mod_eq_of_lt word]
  omega

theorem alignUp_le (aligned : 2 ^ k ∣ place) (above : x ≤ place) :
    alignUp bits (2 ^ k) x ≤ place := by
  by_contra beyond
  have next := add_le_of_dvd aligned (dvd_alignUp (x := x) narrow) (Nat.lt_of_not_le beyond)
  have short := alignUp_lt narrow fits
  omega

end Fits

/-- Nothing is left of a word in the topmost unit. -/
theorem alignUp_eq_zero (narrow : k ≤ bits) (word : x < 2 ^ bits) (top : 2 ^ bits < x + 2 ^ k) :
    alignUp bits (2 ^ k) x = 0 := by
  have unit : 2 ^ k ≤ 2 ^ bits := Nat.pow_le_pow_right Nat.two_pos narrow
  have wrapped : (x + 2 ^ k - 1) % 2 ^ bits = x + 2 ^ k - 1 - 2 ^ bits := by
    rw [Nat.mod_eq_sub_mod (by omega), Nat.mod_eq_of_lt (by omega)]
  have small : x + 2 ^ k - 1 - 2 ^ bits < 2 ^ bits := by omega
  rw [alignUp, wrapped, alignDown_eq narrow small, Nat.div_eq_of_lt (by omega), Nat.zero_mul]

end Alignment
