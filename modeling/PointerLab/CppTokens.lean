import PointerLab.CNumbers
import PointerLab.Transducers

set_option autoImplicit false

/- The tokens of a C++ source text: words, integers, wide strings and a few marks, with lines that
are continued and comments to the end of a line. What else there is in C++ is refused. -/
namespace CppTokens

open CNumbers Digits Transducers Transducer

inductive Mark where
  | leftBrace | rightBrace | leftBracket | rightBracket | leftParen | rightParen
  | comma | semicolon | equals
  deriving DecidableEq

inductive Token where
  | word (letters : List Char)
  | constant (value : Nat)
  | wide (letters : List Char)
  | mark (mark : Mark)
  deriving DecidableEq

/-- A backslash at the end of a line takes the line break with it. The state is whether a backslash
is still to be written. -/
def splice : Transducer Bool Char Char where
  step
    | false, c => if c = '\\' then some ([], true) else some ([c], false)
    | true, c =>
        if c = '\n' then some ([], false)
        else if c = '\\' then some (['\\'], true)
        else some (['\\', c], false)

def markOf : Char → Option Mark
  | '{' => some .leftBrace
  | '}' => some .rightBrace
  | '[' => some .leftBracket
  | ']' => some .rightBracket
  | '(' => some .leftParen
  | ')' => some .rightParen
  | ',' => some .comma
  | ';' => some .semicolon
  | '=' => some .equals
  | _ => none

def isBlank (c : Char) : Bool := c == ' ' || c == '\t' || c == '\n'

def isLetter (c : Char) : Bool := c.isAlphanum || c == '_'

/-- An integer literal in base 16, 8 or 10. -/
def integer (letters : List Char) : Option Nat :=
  let (base, digits) := tellBase letters
  if digits.all (isDigitOf base) then some (number base digits) else none

/-- A word, or a number where it starts with a digit. -/
def wordToken (letters : List Char) : Option Token :=
  if letters.head?.any Char.isDigit then (integer letters).map .constant else some (.word letters)

/-- What the lexer is inside of. -/
inductive Mode where
  | between
  | word (letters : List Char)
  | slash
  | comment
  | literal (letters : List Char)
  | escape (letters : List Char)
  deriving DecidableEq

/-- A character that no token has begun before. -/
def begin_ (c : Char) : Option (List Token × Mode) :=
  if isBlank c then some ([], .between)
  else if isLetter c then some ([], .word [c])
  else if c = '/' then some ([], .slash)
  else (markOf c).map fun mark => ([.mark mark], .between)

def lexer : Transducer Mode Char Token where
  step
    | .between, c => begin_ c
    | .word letters, c =>
        if isLetter c then some ([], .word (letters ++ [c]))
        else if c = '"' then if letters = ['L'] then some ([], .literal []) else none
        else
          match wordToken letters, begin_ c with
          | some token, some (written, mode) => some (token :: written, mode)
          | _, _ => none
    | .slash, c => if c = '/' then some ([], .comment) else none
    | .comment, c => if c = '\n' then some ([], .between) else some ([], .comment)
    | .literal letters, c =>
        if c = '"' then some ([.wide letters], .between)
        else if c = '\\' then some ([], .escape letters)
        else if c = '\n' || c = '\r' then none
        else some ([], .literal (letters ++ [c]))
    | .escape letters, c =>
        if c = '\\' || c = '"' then some ([], .literal (letters ++ [c])) else none

/-- The tokens of a text. -/
def tokens (text : List Char) : Option (List Token) :=
  match splice.run false text with
  | some (spliced, false) =>
      match lexer.run .between spliced with
      | some (read, .between) => some read
      | _ => none
  | _ => none

/-- A stretch of text that is lexed by itself. -/
structure Lexes (text : List Char) (read : List Token) : Prop where
  spliced : splice.Reads false text text false
  lexed : lexer.Reads .between text read .between

theorem Lexes.append {text more : List Char} {read later : List Token} (first : Lexes text read)
    (second : Lexes more later) : Lexes (text ++ more) (read ++ later) where
  spliced := first.spliced.append second.spliced
  lexed := first.lexed.append second.lexed

theorem Lexes.nil : Lexes [] [] := ⟨.nil _, .nil _⟩

theorem Lexes.tokens {text : List Char} {read : List Token} (lexes : Lexes text read) :
    tokens text = some read := by
  have spliced : splice.run false text = some (text, false) := lexes.spliced
  have lexed : lexer.run .between text = some (read, .between) := lexes.lexed
  simp only [CppTokens.tokens, spliced, lexed]

/-! ## Lines -/

/-- The backslash that is still to be written. -/
def held (pending : Bool) : List Char := if pending then ['\\'] else []

/-- Nothing in a line is spliced. -/
theorem splice_line {line : List Char} (unbroken : '\n' ∉ line) (pending : Bool) :
    ∃ written next, splice.Reads pending line written next ∧
      held pending ++ line = written ++ held next := by
  induction line generalizing pending with
  | nil => exact ⟨[], pending, .nil _, List.append_nil _⟩
  | cons c rest ih =>
      have notBreak : '\n' ≠ c := List.ne_of_not_mem_cons unbroken
      have restUnbroken : '\n' ∉ rest := List.not_mem_of_not_mem_cons unbroken
      have step : ∃ out next, splice.step pending c = some (out, next) ∧
          held pending ++ [c] = out ++ held next := by
        by_cases slash : c = '\\'
        · subst slash
          cases pending
          · exact ⟨[], true, rfl, rfl⟩
          · exact ⟨['\\'], true, rfl, rfl⟩
        · cases pending
          · exact ⟨[c], false, if_neg slash, rfl⟩
          · refine ⟨['\\', c], false, ?_, rfl⟩
            have breaks : ¬ c = '\n' := fun same => notBreak same.symm
            simp only [splice, breaks, slash, if_false]
      obtain ⟨out, middle, steps, shows⟩ := step
      obtain ⟨written, next, reads, same⟩ := ih restUnbroken middle
      refine ⟨out ++ written, next, .cons steps reads, ?_⟩
      rw [List.append_assoc, ← same, ← List.append_assoc, ← shows, List.append_assoc]
      rfl

/-- A line that does not end in a backslash stays as it is. -/
theorem spliced_line {line : List Char} (unbroken : '\n' ∉ line)
    (ends : line.getLast? ≠ some '\\') :
    splice.Reads false (line ++ ['\n']) (line ++ ['\n']) false := by
  obtain ⟨written, next, reads, same⟩ := splice_line unbroken false
  cases next with
  | false =>
      have whole : line = written := by simpa [held] using same
      rw [← whole] at reads
      exact reads.append rfl
  | true =>
      have last : line = written ++ ['\\'] := by simpa [held] using same
      rw [last, List.getLast?_concat] at ends
      exact absurd rfl ends

/-- A line by itself. -/
theorem Lexes.line {line : List Char} {read : List Token} (unbroken : '\n' ∉ line)
    (ends : line.getLast? ≠ some '\\')
    (lexed : lexer.Reads .between (line ++ ['\n']) read .between) : Lexes (line ++ ['\n']) read :=
  ⟨spliced_line unbroken ends, lexed⟩

/-! ## Tokens -/

theorem reads_letters {letters : List Char} (all : ∀ c ∈ letters, isLetter c = true)
    (before : List Char) : lexer.Reads (.word before) letters [] (.word (before ++ letters)) := by
  induction letters generalizing before with
  | nil =>
      rw [List.append_nil]
      exact .nil _
  | cons c rest ih =>
      obtain ⟨letter, restLetters⟩ := List.forall_mem_cons.mp all
      have onwards := ih restLetters (before ++ [c])
      rw [List.append_assoc] at onwards
      have step : lexer.step (.word before) c = some ([], .word (before ++ [c])) := if_pos letter
      exact .cons step onwards

theorem begin_letter {c : Char} (letter : isLetter c = true) :
    begin_ c = some ([], .word [c]) := by
  have notBlank : isBlank c = false := by
    by_contra blank
    simp only [isBlank, Bool.not_eq_false, Bool.or_eq_true, beq_iff_eq] at blank
    rcases blank with (rfl | rfl) | rfl <;> exact absurd letter (by decide)
  simp only [begin_, notBlank, letter, if_true, Bool.false_eq_true, if_false]

/-- Letters that start from nothing. -/
theorem reads_word {letters : List Char} (some_ : letters ≠ [])
    (all : ∀ c ∈ letters, isLetter c = true) : lexer.Reads .between letters [] (.word letters) := by
  cases letters with
  | nil => exact absurd rfl some_
  | cons c rest =>
      obtain ⟨letter, restLetters⟩ := List.forall_mem_cons.mp all
      have step : lexer.step .between c = some ([], .word [c]) := begin_letter letter
      exact .cons step (reads_letters restLetters [c])

/-- The character behind a word ends it. -/
theorem step_word {letters : List Char} {token : Token} {c : Char} {written : List Token}
    {mode : Mode} (isToken : wordToken letters = some token) (notLetter : isLetter c = false)
    (notQuote : c ≠ '"') (begins : begin_ c = some (written, mode)) :
    lexer.step (.word letters) c = some (token :: written, mode) := by
  simp only [lexer, notLetter, notQuote, Bool.false_eq_true, if_false, isToken, begins]

/-- A word or a number, the character that ends it, and what else there is. -/
theorem reads_token {letters : List Char} {token : Token}
    (all : ∀ c ∈ letters, isLetter c = true) (isToken : wordToken letters = some token)
    (some_ : letters ≠ []) {c : Char} {rest : List Char} {written later : List Token}
    {mode last : Mode} (notLetter : isLetter c = false) (notQuote : c ≠ '"')
    (begins : begin_ c = some (written, mode)) (others : lexer.Reads mode rest later last) :
    lexer.Reads .between (letters ++ c :: rest) (token :: written ++ later) last :=
  (reads_word some_ all).append (.cons (step_word isToken notLetter notQuote begins) others)

theorem reads_comment {comment : List Char} (unbroken : '\n' ∉ comment) :
    lexer.Reads .comment (comment ++ ['\n']) [] .between := by
  induction comment with
  | nil => rfl
  | cons c rest ih =>
      have notBreak : '\n' ≠ c := List.ne_of_not_mem_cons unbroken
      have step : lexer.step .comment c = some ([], .comment) :=
        if_neg fun same => notBreak same.symm
      exact .cons step (ih (List.not_mem_of_not_mem_cons unbroken))

end CppTokens
