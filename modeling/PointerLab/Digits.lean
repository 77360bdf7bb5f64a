import Mathlib.Algebra.Group.Nat.Defs
import Mathlib.Data.List.Basic
import Mathlib.Data.List.Induction

set_option autoImplicit false

/- Numbers written in digits, and read back. -/
namespace Digits

/-- `std::isxdigit`. -/
def isHexDigit (c : Char) : Bool :=
  c.isDigit || ('a' ≤ c && c ≤ 'f') || ('A' ≤ c && c ≤ 'F')

/-- What a digit is worth, of either case. -/
def digitValue (c : Char) : Nat :=
  if c.isDigit then c.toNat - '0'.toNat
  else if 'a' ≤ c && c ≤ 'f' then c.toNat - 'a'.toNat + 10
  else c.toNat - 'A'.toNat + 10

/-- The number that digits of a base are. -/
def number (base : Nat) (digits : List Char) : Nat :=
  digits.foldl (fun number c => number * base + digitValue c) 0

theorem number_append (base : Nat) (digits : List Char) (last : Char) :
    number base (digits ++ [last]) = number base digits * base + digitValue last := by
  simp only [number, List.foldl_append, List.foldl_cons, List.foldl_nil]

theorem digitChar_facts : ∀ digit < 16, digitValue (Nat.digitChar digit) = digit ∧
    isHexDigit (Nat.digitChar digit) = true := by
  decide

theorem mem_toDigits {base value : Nat} (large : 1 < base) {c : Char}
    (inside : c ∈ Nat.toDigits base value) : ∃ digit < base, c = Nat.digitChar digit := by
  induction value using Nat.strongRecOn with
  | ind value ih =>
      rw [Nat.toDigits_eq_if large] at inside
      split at inside
      · rename_i small
        exact ⟨value, small, List.mem_singleton.mp inside⟩
      · rename_i big
        rcases List.mem_append.mp inside with before | last
        · exact ih (value / base) (Nat.div_lt_self (by omega) large) before
        · exact ⟨value % base, Nat.mod_lt _ (by omega), List.mem_singleton.mp last⟩

/-- Writing a number and reading it gives the number. -/
theorem number_toDigits {base : Nat} (large : 1 < base) (within : base ≤ 16) (value : Nat) :
    number base (Nat.toDigits base value) = value := by
  induction value using Nat.strongRecOn with
  | ind value ih =>
      rw [Nat.toDigits_eq_if large]
      split
      · rename_i small
        have worth := (digitChar_facts value (by omega)).1
        simp only [number, List.foldl_cons, List.foldl_nil, Nat.zero_mul, Nat.zero_add, worth]
      · rename_i big
        have worth := (digitChar_facts (value % base)
          (Nat.lt_of_lt_of_le (Nat.mod_lt _ (by omega)) within)).1
        rw [number_append, ih (value / base) (Nat.div_lt_self (by omega) large), worth,
          Nat.mul_comm, Nat.div_add_mod]

theorem toDigits_hex (value : Nat) : ∀ c ∈ Nat.toDigits 16 value, isHexDigit c = true := by
  intro c inside
  obtain ⟨digit, small, rfl⟩ := mem_toDigits (by decide) inside
  exact (digitChar_facts digit small).2

theorem toDigits_decimal (value : Nat) : ∀ c ∈ Nat.toDigits 10 value, c.isDigit = true :=
  fun _ inside => Nat.isDigit_of_mem_toDigits (by decide) (by decide) inside

theorem digitChar_digitValue {c : Char} (decimal : c.isDigit = true) :
    digitValue c < 10 ∧ Nat.digitChar (digitValue c) = c := by
  have worth : ∀ d < 10, digitValue (Char.ofNat (48 + d)) < 10 ∧
      Nat.digitChar (digitValue (Char.ofNat (48 + d))) = Char.ofNat (48 + d) := by decide
  rw [Char.isDigit, Bool.and_eq_true, decide_eq_true_eq, decide_eq_true_eq] at decimal
  have low : 48 ≤ c.toNat := decimal.1
  have high : c.toNat ≤ 57 := decimal.2
  have found := worth (c.toNat - 48) (by omega)
  rwa [show 48 + (c.toNat - 48) = c.toNat by omega, Char.ofNat_toNat] at found

/-- Reading a number and writing it gives its digits, if no zero leads them. -/
theorem toDigits_number {digits : List Char} (decimal : ∀ c ∈ digits, c.isDigit = true)
    (some_ : digits ≠ []) (leads : digits.head? ≠ some '0') :
    Nat.toDigits 10 (number 10 digits) = digits := by
  induction digits using List.reverseRecOn with
  | nil => exact absurd rfl some_
  | append_singleton digits last ih =>
      obtain ⟨small, same⟩ := digitChar_digitValue (decimal last (by simp))
      rw [number_append]
      cases before : digits with
      | nil =>
          rw [number, List.foldl_nil, Nat.zero_mul, Nat.zero_add, Nat.toDigits_eq_if (by decide),
            if_pos small, same, List.nil_append]
      | cons first rest =>
          rw [← before]
          have nonempty : digits ≠ [] := by rw [before]; exact List.cons_ne_nil _ _
          rw [List.head?_append_of_ne_nil _ nonempty] at leads
          have earlier := ih (fun c inside => decimal c (List.mem_append_left _ inside)) nonempty
            leads
          have positive : number 10 digits ≠ 0 := by
            intro zero
            rw [zero] at earlier
            rw [← earlier] at leads
            exact leads rfl
          have quotient : (number 10 digits * 10 + digitValue last) / 10 = number 10 digits := by
            omega
          have rest : (number 10 digits * 10 + digitValue last) % 10 = digitValue last := by omega
          rw [Nat.toDigits_eq_if (by decide), if_neg (by omega), quotient, rest, earlier, same]

theorem digitValue_lt {c : Char} (digit : isHexDigit c = true) : digitValue c < 16 := by
  simp only [isHexDigit, Char.isDigit, Bool.or_eq_true, Bool.and_eq_true, decide_eq_true_eq, ge_iff_le,
    Char.le_def, UInt32.le_iff_toNat_le] at digit
  simp only [digitValue, Char.isDigit, Bool.and_eq_true, decide_eq_true_eq, ge_iff_le,
    Char.le_def, UInt32.le_iff_toNat_le, Char.toNat]
  have zero : ('0' : Char).val.toNat = 48 := by decide
  have nine : ('9' : Char).val.toNat = 57 := by decide
  have a : ('a' : Char).val.toNat = 97 := by decide
  have f : ('f' : Char).val.toNat = 102 := by decide
  have A : ('A' : Char).val.toNat = 65 := by decide
  have F : ('F' : Char).val.toNat = 70 := by decide
  split_ifs <;> omega

theorem number_lt {digits : List Char} (hex : ∀ c ∈ digits, isHexDigit c = true) :
    number 16 digits < 16 ^ digits.length := by
  have grows : ∀ start, digits.foldl (fun number c => number * 16 + digitValue c) start <
      (start + 1) * 16 ^ digits.length := by
    induction digits with
    | nil => intro start; simp
    | cons c rest ih =>
        intro start
        have small := digitValue_lt (hex c List.mem_cons_self)
        have below := ih (fun c inRest => hex c (List.mem_cons_of_mem _ inRest))
          (start * 16 + digitValue c)
        calc _ < (start * 16 + digitValue c + 1) * 16 ^ rest.length := below
          _ ≤ (start * 16 + 16) * 16 ^ rest.length := Nat.mul_le_mul_right _ (by omega)
          _ = (start + 1) * 16 ^ (rest.length + 1) := by rw [Nat.pow_succ, ← Nat.mul_assoc, Nat.mul_right_comm, Nat.succ_mul start]
  have whole := grows 0
  rwa [Nat.zero_add, Nat.one_mul] at whole

end Digits
