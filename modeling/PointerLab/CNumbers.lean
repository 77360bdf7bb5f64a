import Mathlib.Data.List.Induction
import Mathlib.Data.List.TakeWhile
import Mathlib.Tactic.Ring
import PointerLab.Digits

set_option autoImplicit false

/- The numbers that the C library reads from the start of a text: white space, a sign, digits,
and whatever follows. -/
namespace CNumbers

open Digits

/-- A number as it is written, and the text behind it. -/
structure Numeral where
  negative : Bool
  base : Nat
  digits : List Char
  rest : List Char
  deriving DecidableEq

namespace Numeral

def magnitude (numeral : Numeral) : Nat := number numeral.base numeral.digits

def value (numeral : Numeral) : Int :=
  if numeral.negative then -numeral.magnitude else numeral.magnitude

end Numeral

def isDigitOf (base : Nat) (c : Char) : Bool := isHexDigit c && digitValue c < base

/-- A sign taken off: whether it is a minus, and the text behind it. -/
def sign : List Char → Bool × List Char
  | '-' :: rest => (true, rest)
  | '+' :: rest => (false, rest)
  | text => (false, text)

/-- Digits of a base, as many as there are. -/
def digitsOf (negative : Bool) (base : Nat) (text : List Char) : Numeral where
  negative := negative
  base := base
  digits := text.takeWhile (isDigitOf base)
  rest := text.dropWhile (isDigitOf base)

/-- The base that a prefix tells, and the text behind the prefix. A zero that leads is octal, and
also a digit of the number. -/
def tellBase : List Char → Nat × List Char
  | '0' :: x :: c :: rest =>
      if (x == 'x' || x == 'X') && isHexDigit c then (16, c :: rest)
      else (8, '0' :: x :: c :: rest)
  | '0' :: rest => (8, '0' :: rest)
  | text => (10, text)

variable (space : Char → Bool)

/-- What is read in base 10. -/
def decimal (text : List Char) : Numeral :=
  let (negative, body) := sign (text.dropWhile space)
  digitsOf negative 10 body

/-- What is read in base 0. -/
def prefixed (text : List Char) : Numeral :=
  let (negative, body) := sign (text.dropWhile space)
  let (base, body) := tellBase body
  digitsOf negative base body

/-- `std::stoll` of a text; nothing where it throws. -/
def stoll (text : List Char) : Option Int :=
  let numeral := decimal space text
  if numeral.digits.isEmpty || numeral.value < -2 ^ 63 || 2 ^ 63 ≤ numeral.value then none
  else some numeral.value

/-- `std::stoull` of a text in base 0; nothing where it throws. A minus negates the unsigned
number. -/
def stoull (text : List Char) : Option Nat :=
  let numeral := prefixed space text
  if numeral.digits.isEmpty || 2 ^ 64 ≤ numeral.magnitude then none
  else some (numeral.value % 2 ^ 64).toNat

/-- The integer that a whole text is in decimal, white space around it apart. -/
def wholeDecimal (text : List Char) : Option Int :=
  let numeral := decimal space text
  if numeral.digits.isEmpty || numeral.rest.any (!space ·) then none else some numeral.value

theorem number_cons (base : Nat) (c : Char) (digits : List Char) :
    number base (c :: digits) = digitValue c * base ^ digits.length + number base digits := by
  induction digits using List.reverseRecOn with
  | nil => simp [number]
  | append_singleton digits last ih =>
      rw [← List.cons_append, number_append, number_append, ih, List.length_append,
        List.length_singleton, Nat.pow_succ]
      ring

theorem isDigitOf_mono {least greatest : Nat} (more : least ≤ greatest) {c : Char}
    (digit : isDigitOf least c = true) : isDigitOf greatest c = true := by
  simp only [isDigitOf, Bool.and_eq_true, decide_eq_true_eq] at digit ⊢
  exact ⟨digit.1, Nat.lt_of_lt_of_le digit.2 more⟩

/-- Read in octal a decimal number becomes smaller, unless it is under eight. -/
theorem octal_decimal {digits : List Char} (decimal : ∀ c ∈ digits, isDigitOf 10 c = true) :
    number 8 (digits.takeWhile (isDigitOf 8)) ≤ number 10 digits ∧
      (number 8 (digits.takeWhile (isDigitOf 8)) = number 10 digits ↔ number 10 digits < 8) := by
  induction digits with
  | nil => decide
  | cons c rest ih =>
      obtain ⟨below, same⟩ := ih fun other inRest => decimal other (List.mem_cons_of_mem _ inRest)
      have hex : isHexDigit c = true := by
        have digit := decimal c List.mem_cons_self
        simp only [isDigitOf, Bool.and_eq_true] at digit
        exact digit.1
      have positive := Nat.pow_pos (n := rest.length) (by decide : 0 < 10)
      rw [number_cons 10]
      by_cases small : digitValue c < 8
      · have octal : isDigitOf 8 c = true := by simp [isDigitOf, hex, small]
        rw [List.takeWhile_cons_of_pos octal, number_cons]
        by_cases zero : digitValue c = 0
        · rw [zero]
          omega
        · have fewer : (rest.takeWhile (isDigitOf 8)).length ≤ rest.length :=
            (List.takeWhile_prefix _).length_le
          cases rest with
          | nil =>
              simp only [List.takeWhile_nil, List.length_nil, Nat.pow_zero]
              exact ⟨Nat.le_refl _, iff_of_true rfl (by simpa [number] using small)⟩
          | cons next more =>
              have large : 8 ^ ((next :: more).takeWhile (isDigitOf 8)).length <
                  10 ^ (next :: more).length :=
                Nat.lt_of_le_of_lt (Nat.pow_le_pow_right (by decide) fewer)
                  (Nat.pow_lt_pow_left (by decide) (Nat.succ_ne_zero _))
              have whole : digitValue c * 8 ^ ((next :: more).takeWhile (isDigitOf 8)).length <
                  digitValue c * 10 ^ (next :: more).length :=
                Nat.mul_lt_mul_of_pos_left large (Nat.pos_of_ne_zero zero)
              have ten : 10 ≤ 10 ^ (next :: more).length :=
                Nat.le_self_pow (Nat.succ_ne_zero _) 10
              have many : 10 ≤ digitValue c * 10 ^ (next :: more).length :=
                Nat.le_trans ten (Nat.le_mul_of_pos_left _ (Nat.pos_of_ne_zero zero))
              omega
      · have stops : isDigitOf 8 c = false := by simp [isDigitOf, small]
        have many : 8 ≤ digitValue c * 10 ^ rest.length :=
          Nat.le_trans (by omega) (Nat.le_mul_of_pos_right (digitValue c) positive)
        rw [List.takeWhile_cons_of_neg (by simp [stops])]
        have none_ : number 8 [] = 0 := rfl
        rw [none_]
        omega

theorem tellBase_cases (body : List Char) :
    (tellBase body = (10, body) ∧ body.head? ≠ some '0') ∨
      (tellBase body = (8, body) ∧ body.head? = some '0') ∨
      ∃ x c rest, body = '0' :: x :: c :: rest ∧ (x = 'x' ∨ x = 'X') ∧ isHexDigit c = true ∧
        tellBase body = (16, c :: rest) := by
  unfold tellBase
  split
  · rename_i x c rest
    split
    · rename_i hex
      simp only [Bool.and_eq_true, Bool.or_eq_true, beq_iff_eq] at hex
      exact Or.inr (Or.inr ⟨x, c, rest, rfl, hex.1, hex.2, rfl⟩)
    · exact Or.inr (Or.inl ⟨rfl, rfl⟩)
  · exact Or.inr (Or.inl ⟨rfl, rfl⟩)
  · rename_i short other
    refine Or.inl ⟨rfl, fun zero => ?_⟩
    obtain ⟨rest, rfl⟩ := List.head?_eq_some_iff.mp zero
    exact other rest rfl

variable {space}

theorem takeWhile_octal (body : List Char) :
    body.takeWhile (isDigitOf 8) = (body.takeWhile (isDigitOf 10)).takeWhile (isDigitOf 8) := by
  rw [List.takeWhile_takeWhile]
  congr 1
  funext c
  cases octal : isDigitOf 8 c with
  | false => simp
  | true => simp [isDigitOf_mono (by decide : 8 ≤ 10) octal]

/-- Reading in base 0 differs from reading in base 10 only behind a zero that leads: there it is
octal, or an `x` is next. -/
theorem prefixed_cases (text : List Char) :
    ((decimal space text).digits.head? ≠ some '0' ∧ prefixed space text = decimal space text) ∨
      (decimal space text).digits.head? = some '0' ∧ (prefixed space text).digits ≠ [] ∧
        (prefixed space text).negative = (decimal space text).negative ∧
        (((prefixed space text).magnitude ≤ (decimal space text).magnitude ∧
            ((prefixed space text).magnitude = (decimal space text).magnitude ↔
              (decimal space text).magnitude < 8)) ∨
          ∃ x ∈ (decimal space text).rest, x = 'x' ∨ x = 'X') := by
  unfold decimal prefixed
  obtain ⟨negative, body⟩ := sign (text.dropWhile space)
  have zero : isDigitOf 10 '0' = true := by decide
  dsimp only
  rcases tellBase_cases body with ⟨same, first⟩ | ⟨octal, first⟩ | ⟨x, c, rest, rfl, isX, hex, told⟩
  · rw [same]
    refine Or.inl ⟨fun leads => first ?_, rfl⟩
    obtain ⟨digits, written⟩ := List.head?_eq_some_iff.mp leads
    cases body with
    | nil => contradiction
    | cons c rest =>
        have taken : (c :: rest).takeWhile (isDigitOf 10) = '0' :: digits := written
        rw [List.takeWhile_cons] at taken
        split at taken
        · rw [(List.cons.inj taken).1]
          rfl
        · contradiction
  · obtain ⟨rest, rfl⟩ := List.head?_eq_some_iff.mp first
    rw [octal]
    refine Or.inr ⟨?_, ?_, rfl, Or.inl ?_⟩
    · show (('0' :: rest).takeWhile (isDigitOf 10)).head? = some '0'
      rw [List.takeWhile_cons_of_pos zero]
      rfl
    · show ('0' :: rest).takeWhile (isDigitOf 8) ≠ []
      rw [List.takeWhile_cons_of_pos (by decide)]
      exact List.cons_ne_nil _ _
    · have digits : ∀ c ∈ ('0' :: rest).takeWhile (isDigitOf 10), isDigitOf 10 c = true :=
        fun c inside => List.mem_takeWhile_imp inside
      have below := octal_decimal digits
      rwa [← takeWhile_octal] at below
  · rw [told]
    refine Or.inr ⟨?_, ?_, rfl, Or.inr ⟨x, ?_, isX⟩⟩
    · show (('0' :: x :: c :: rest).takeWhile (isDigitOf 10)).head? = some '0'
      rw [List.takeWhile_cons_of_pos zero]
      rfl
    · show (c :: rest).takeWhile (isDigitOf 16) ≠ []
      rw [List.takeWhile_cons_of_pos (by simp [isDigitOf, hex, digitValue_lt hex])]
      exact List.cons_ne_nil _ _
    · have stops : isDigitOf 10 x = false := by
        rcases isX with rfl | rfl <;> decide
      show x ∈ ('0' :: x :: c :: rest).dropWhile (isDigitOf 10)
      rw [List.dropWhile_cons_of_pos zero, List.dropWhile_cons_of_neg (by simp [stops])]
      exact List.mem_cons_self

end CNumbers
