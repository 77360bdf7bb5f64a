import Mathlib.Data.List.Basic

set_option autoImplicit false

/- Strings of bytes, and which of them are UTF-8. -/
namespace ByteText

abbrev Bytes := List UInt8

/-- The bytes of a text that is ASCII. -/
def ascii (text : String) : Bytes := text.toList.map fun c => UInt8.ofNat c.toNat

/-- Between two bytes: what the character begun so far still allows. -/
inductive Place where
  | between
  /-- So many continuation bytes are left, one or two or three. -/
  | one
  | two
  | three
  /-- The second of three bytes, which must not be an overlong form or a surrogate. -/
  | high
  | low
  /-- The second of four bytes, which must be in the range of characters. -/
  | above
  | below
  | broken
deriving DecidableEq

def lead (byte : UInt8) : Place :=
  if byte < 0x80 then .between
  else if byte < 0xC2 then .broken
  else if byte < 0xE0 then .one
  else if byte = 0xE0 then .high
  else if byte = 0xED then .low
  else if byte < 0xF0 then .two
  else if byte = 0xF0 then .above
  else if byte < 0xF4 then .three
  else if byte = 0xF4 then .below
  else .broken

/-- A continuation byte in a range leads on. -/
def tail (least greatest : UInt8) (next : Place) (byte : UInt8) : Place :=
  if least ≤ byte ∧ byte ≤ greatest then next else .broken

def step : Place → UInt8 → Place
  | .between => lead
  | .one => tail 0x80 0xBF .between
  | .two => tail 0x80 0xBF .one
  | .three => tail 0x80 0xBF .two
  | .high => tail 0xA0 0xBF .one
  | .low => tail 0x80 0x9F .one
  | .above => tail 0x90 0xBF .two
  | .below => tail 0x80 0x8F .two
  | .broken => fun _ => .broken

def utf8 (text : Bytes) : Bool := text.foldl step .between == .between

def Ascii (text : Bytes) : Prop := ∀ byte ∈ text, byte < 0x80

instance (text : Bytes) : Decidable (Ascii text) := List.decidableBAll _ text

@[simp] theorem utf8_nil : utf8 [] = true := rfl

theorem foldl_between {text : Bytes} (plain : Ascii text) :
    text.foldl step .between = .between := by
  induction text with
  | nil => rfl
  | cons byte rest ih =>
      have small := plain byte List.mem_cons_self
      have lead_eq : step .between byte = .between := by
        simp [step, lead, small]
      rw [List.foldl_cons, lead_eq]
      exact ih fun other later => plain other (List.mem_cons_of_mem _ later)

theorem foldl_broken (text : Bytes) : text.foldl step .broken = .broken := by
  induction text with
  | nil => rfl
  | cons byte rest ih => exact ih

theorem tail_small {byte least greatest : UInt8} (small : byte < 0x80) (from_ : 0x80 ≤ least)
    (next : Place) : tail least greatest next byte = .broken := by
  unfold tail
  rw [if_neg]
  rintro ⟨above, _⟩
  exact absurd small (UInt8.not_lt.mpr (UInt8.le_trans from_ above))

/-- No character goes on with an ASCII byte. -/
theorem step_small {place : Place} {byte : UInt8} (small : byte < 0x80)
    (inside : place ≠ .between) : step place byte = .broken := by
  cases place with
  | between => contradiction
  | broken => rfl
  | _ => exact tail_small small (by decide) _

theorem utf8_append {text : Bytes} (valid : utf8 text = true) (more : Bytes) :
    utf8 (text ++ more) = utf8 more := by
  rw [utf8, beq_iff_eq] at valid
  rw [utf8, List.foldl_append, valid, utf8]

theorem utf8_of_ascii {text : Bytes} (plain : Ascii text) : utf8 text = true := by
  rw [utf8, foldl_between plain]
  rfl

def isPlain (text : String) : Bool := text.toList.all fun c => c.toNat < 128

theorem ascii_literal {text : String} (plain : isPlain text = true) : Ascii (ascii text) := by
  intro byte member
  obtain ⟨c, inText, rfl⟩ := List.mem_map.mp member
  have small : c.toNat < 128 := by
    simpa using List.all_eq_true.mp plain c inText
  rw [UInt8.lt_iff_toNat_lt, UInt8.toNat_ofNat']
  show c.toNat % 256 < 128
  omega

/-- A literal in plain ASCII. -/
theorem utf8_literal {text : String} (plain : isPlain text = true) : utf8 (ascii text) = true :=
  utf8_of_ascii (ascii_literal plain)

/-- A text with ASCII in front of it is UTF-8 exactly when it is on its own. -/
theorem utf8_ascii_append {plain : Bytes} (isAscii : Ascii plain) (text : Bytes) :
    utf8 (plain ++ text) = utf8 text := utf8_append (utf8_of_ascii isAscii) text

/-- The same for ASCII behind it. -/
theorem utf8_append_ascii {plain : Bytes} (isAscii : Ascii plain) (text : Bytes) :
    utf8 (text ++ plain) = utf8 text := by
  cases plain with
  | nil => rw [List.append_nil]
  | cons byte rest =>
      have small := isAscii byte List.mem_cons_self
      have restAscii : Ascii rest := fun other later => isAscii other (List.mem_cons_of_mem _ later)
      by_cases whole : text.foldl step .between = .between
      · have valid : utf8 text = true := by
          rw [utf8, whole]
          rfl
        rw [utf8_append valid, utf8_of_ascii isAscii, valid]
      · have bad : utf8 text = false := by
          rw [utf8, beq_eq_false_iff_ne]
          exact whole
        rw [bad, utf8, List.foldl_append, List.foldl_cons, step_small small whole, foldl_broken]
        rfl

example : utf8 (ascii "caf" ++ [0xC3, 0xA9]) = true := by decide
example : utf8 (ascii "caf" ++ [0xE9]) = false := by decide

end ByteText
