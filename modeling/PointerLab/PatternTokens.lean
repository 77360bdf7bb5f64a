import PointerLab.Values

set_option autoImplicit false

/- Byte patterns as lists of tokens, and which of them `parseHexPattern` reads token by token. -/
namespace PointerLab.Domain

open Digits

/-- Two hexadecimal digits, "?" or "??". -/
inductive PatternToken where
  | pair (high low : Char) (isHigh : isHexDigit high = true) (isLow : isHexDigit low = true)
  | mark
  | marks
  deriving DecidableEq

def PatternToken.text : PatternToken → Text
  | .pair high low _ _ => [high, low]
  | .mark => ['?']
  | .marks => ['?', '?']

/-- A token with the white space behind it. -/
structure PatternPiece where
  token : PatternToken
  gap : Text
  blank : gap.all isSpace = true

/-- White space and the pieces. -/
def spacedText (lead : { text : Text // text.all isSpace = true }) (pieces : List PatternPiece) :
    Text :=
  lead.val ++ pieces.flatMap fun piece => piece.token.text ++ piece.gap

def compactText (tokens : List PatternToken) : Text := tokens.flatMap PatternToken.text

/-- One byte and one mask entry for each token. -/
def patternOf : List PatternToken → HexPattern
  | [] => ⟨[], [], rfl⟩
  | .pair high low _ _ :: rest => (patternOf rest).cons (byteOfDigits high low) 0xFF
  | .mark :: rest => (patternOf rest).cons 0 0x00
  | .marks :: rest => (patternOf rest).cons 0 0x00

def ReadsTokens (text : Text) (tokens : List PatternToken) : Prop :=
  parseHexPattern text = some (patternOf tokens)

def PatternToken.isWild : PatternToken → Bool
  | .pair _ _ _ _ => false
  | .mark | .marks => true

/-- No stretch of wildcards has two single question marks. -/
def Apart (tokens : List PatternToken) : Prop :=
  ∀ run, run <:+: tokens → run.all PatternToken.isWild = true → run.count .mark ≤ 1

/-- The same from the left: whether a single one has been seen since the last pair. -/
def apartFrom : Bool → List PatternToken → Bool
  | _, [] => true
  | _, .pair _ _ _ _ :: rest => apartFrom false rest
  | seen, .mark :: rest => !seen && apartFrom true rest
  | seen, .marks :: rest => apartFrom seen rest

theorem hex_ne_mark {c : Char} (hex : isHexDigit c = true) : c ≠ '?' := by
  rintro rfl
  contradiction

theorem hex_not_space {c : Char} (hex : isHexDigit c = true) : isSpace c = false := by
  rw [Bool.eq_false_iff]
  intro space
  simp only [isSpace, Bool.or_eq_true, beq_iff_eq] at space
  rcases space with ((((rfl | rfl) | rfl) | rfl) | rfl) | rfl <;> contradiction

theorem text_nonempty (token : PatternToken) : token.text ≠ [] := by
  cases token <;> exact List.cons_ne_nil _ _

theorem text_letters (token : PatternToken) :
    ∀ c ∈ token.text, (isHexDigit c || c == '?') = true ∧ isSpace c = false := by
  have mark : (isHexDigit '?' || '?' == '?') = true ∧ isSpace '?' = false := by decide
  cases token with
  | pair high low isHigh isLow =>
      intro c inside
      have hex : isHexDigit c = true := by
        rcases List.mem_cons.mp inside with rfl | last
        · exact isHigh
        · exact List.mem_singleton.mp last ▸ isLow
      exact ⟨by rw [hex, Bool.true_or], hex_not_space hex⟩
  | mark =>
      intro c inside
      exact List.mem_singleton.mp inside ▸ mark
  | marks =>
      intro c inside
      rcases List.mem_cons.mp inside with rfl | last
      · exact mark
      · exact List.mem_singleton.mp last ▸ mark

/-- The parser drops the white space and nothing else. -/
theorem filter_spacedText (lead : { text : Text // text.all isSpace = true })
    (pieces : List PatternPiece) :
    (spacedText lead pieces).filter (fun c => !isSpace c) =
      compactText (pieces.map (·.token)) := by
  have gone {gap : Text} (blank : gap.all isSpace = true) :
      gap.filter (fun c => !isSpace c) = [] := by
    refine List.filter_eq_nil_iff.mpr fun c inside => ?_
    simp [List.all_eq_true.mp blank c inside]
  rw [spacedText, List.filter_append, gone lead.property, List.nil_append]
  induction pieces with
  | nil => rfl
  | cons piece rest ih =>
      have kept : piece.token.text.filter (fun c => !isSpace c) = piece.token.text := by
        refine List.filter_eq_self.mpr fun c inside => ?_
        simp [(text_letters piece.token c inside).2]
      rw [List.flatMap_cons, List.filter_append, List.filter_append, kept, gone piece.blank,
        List.append_nil, ih]
      rfl

theorem compactText_filter (tokens : List PatternToken) :
    (compactText tokens).filter (fun c => !isSpace c) = compactText tokens := by
  refine List.filter_eq_self.mpr fun c inside => ?_
  obtain ⟨token, _, letter⟩ := List.mem_flatMap.mp inside
  simp [(text_letters token c letter).2]

/-- A text that is tokens but for its white space comes to the loop. -/
theorem parseHexPattern_compact {text : Text} {tokens : List PatternToken}
    (compact : text.filter (fun c => !isSpace c) = compactText tokens) :
    parseHexPattern text =
      if tokens = [] then none else compactPattern (compactText tokens) := by
  have letters : (compactText tokens).any (fun c => !(isHexDigit c || c == '?')) = false := by
    refine List.any_eq_false.mpr fun c inside => ?_
    obtain ⟨token, _, letter⟩ := List.mem_flatMap.mp inside
    simp [(text_letters token c letter).1]
  have empty : (compactText tokens).isEmpty = true ↔ tokens = [] := by
    rw [List.isEmpty_iff, compactText, List.flatMap_eq_nil_iff]
    constructor
    · intro none_
      cases tokens with
      | nil => rfl
      | cons token rest => exact absurd (none_ token List.mem_cons_self) (text_nonempty token)
    · rintro rfl token inside
      contradiction
  simp only [parseHexPattern, compact, letters, empty, Bool.false_eq_true, ↓reduceIte]

theorem compactPattern_pair {high low : Char} (isHigh : isHexDigit high = true)
    (isLow : isHexDigit low = true) (rest : Text) :
    compactPattern (high :: low :: rest) =
      (compactPattern rest).map (.cons (byteOfDigits high low) 0xFF) := by
  have first := hex_ne_mark isHigh
  rw [compactPattern.eq_def]
  split
  · contradiction
  · rename_i same
    exact absurd (List.cons.inj same).1 first
  · rename_i same
    exact absurd (List.cons.inj same).1 first
  · rename_i same
    obtain ⟨sameHigh, tail⟩ := List.cons.inj same
    obtain ⟨rfl, rfl⟩ := List.cons.inj tail
    rw [if_pos isLow, sameHigh]
  · rename_i same
    exact absurd (List.cons.inj same).2 (List.cons_ne_nil _ _)

theorem compactPattern_marks (rest : Text) :
    compactPattern ('?' :: '?' :: rest) = (compactPattern rest).map (.cons 0 0x00) := by
  rw [compactPattern]

theorem compactPattern_mark {c : Char} (other : c ≠ '?') (rest : Text) :
    compactPattern ('?' :: c :: rest) = (compactPattern (c :: rest)).map (.cons 0 0x00) := by
  rw [compactPattern]
  intro more same
  exact other (List.cons.inj same).1

theorem cons_inj {byte mask : UInt8} {left right : HexPattern} :
    left.cons byte mask = right.cons byte mask ↔ left = right := by
  constructor
  · intro same
    obtain ⟨bytes, masks, _⟩ := left
    obtain ⟨otherBytes, otherMasks, _⟩ := right
    simp only [HexPattern.cons, HexPattern.mk.injEq, List.cons.injEq, true_and] at same
    simp only [same]
  · rintro rfl
    rfl

theorem patternOf_length (tokens : List PatternToken) :
    (patternOf tokens).bytes.length = tokens.length := by
  induction tokens with
  | nil => rfl
  | cons token rest ih => cases token <;> exact congrArg Nat.succ ih

/-- Tokens are always read, as no more bytes than there are tokens. They are read one by one just
when single question marks are apart; one that is pending counts as seen. -/
theorem compactPattern_tokens (tokens : List PatternToken) :
    (∃ pattern, compactPattern (compactText tokens) = some pattern ∧
        pattern.bytes.length ≤ tokens.length ∧
        (pattern = patternOf tokens ↔ apartFrom false tokens = true)) ∧
      ∃ pattern, compactPattern ('?' :: compactText tokens) = some pattern ∧
        pattern.bytes.length ≤ tokens.length + 1 ∧
        (pattern = (patternOf tokens).cons 0 0x00 ↔ apartFrom true tokens = true) := by
  induction tokens with
  | nil => exact ⟨⟨_, rfl, Nat.le_refl _, iff_of_true rfl rfl⟩, _, rfl, Nat.le_refl _,
      iff_of_true rfl rfl⟩
  | cons token rest ih =>
      obtain ⟨⟨pattern, parsed, few, exact_⟩, pending, waiting, fewer, pendingExact⟩ := ih
      cases token with
      | pair high low isHigh isLow =>
          have here : compactPattern (compactText (.pair high low isHigh isLow :: rest)) =
              some (pattern.cons (byteOfDigits high low) 0xFF) := by
            show compactPattern (high :: low :: compactText rest) = _
            rw [compactPattern_pair isHigh isLow, parsed]
            rfl
          refine ⟨⟨_, here, Nat.succ_le_succ few, cons_inj.trans exact_⟩,
            (pattern.cons (byteOfDigits high low) 0xFF).cons 0 0x00, ?_,
            Nat.succ_le_succ (Nat.succ_le_succ few), (cons_inj.trans cons_inj).trans exact_⟩
          show compactPattern ('?' :: high :: low :: compactText rest) = _
          rw [compactPattern_mark (hex_ne_mark isHigh)]
          exact congrArg (Option.map _) here
      | mark =>
          refine ⟨⟨pending, waiting, fewer, pendingExact⟩, pattern.cons 0 0x00, ?_, ?_, ?_⟩
          · show compactPattern ('?' :: '?' :: compactText rest) = _
            rw [compactPattern_marks, parsed]
            rfl
          · show pattern.bytes.length + 1 ≤ rest.length + 1 + 1
            omega
          · refine iff_of_false (fun same => ?_) Bool.false_ne_true
            have lengths := congrArg (fun pattern => pattern.bytes.length) (cons_inj.mp same)
            have whole := patternOf_length (.mark :: rest)
            rw [List.length_cons] at whole
            omega
      | marks =>
          refine ⟨⟨pattern.cons 0 0x00, ?_, Nat.succ_le_succ few, cons_inj.trans exact_⟩,
            pending.cons 0 0x00, ?_, Nat.succ_le_succ fewer, cons_inj.trans pendingExact⟩
          · show compactPattern ('?' :: '?' :: compactText rest) = _
            rw [compactPattern_marks, parsed]
            rfl
          · show compactPattern ('?' :: '?' :: '?' :: compactText rest) = _
            rw [compactPattern_marks, waiting]
            rfl

/-- The stretches of wildcards at the start have at most so many single question marks. -/
def Starts (limit : Nat) (tokens : List PatternToken) : Prop :=
  ∀ run, run <+: tokens → run.all PatternToken.isWild = true → run.count .mark ≤ limit

theorem Apart.starts {tokens : List PatternToken} (apart : Apart tokens) : Starts 1 tokens :=
  fun run part => apart run part.isInfix

theorem apart_cons (token : PatternToken) (rest : List PatternToken) :
    Apart (token :: rest) ↔ Starts 1 (token :: rest) ∧ Apart rest := by
  constructor
  · intro every
    exact ⟨every.starts, fun run part => every run (List.infix_cons part)⟩
  · rintro ⟨first, later⟩ run part
    rcases List.infix_cons_iff.mp part with starts | inRest
    · exact first run starts
    · exact later run inRest

theorem starts_cons (limit : Nat) (token : PatternToken) (rest : List PatternToken) :
    Starts limit (token :: rest) ↔
      (token.isWild = true → ∀ run, run <+: rest → run.all PatternToken.isWild = true →
        (token :: run).count .mark ≤ limit) := by
  constructor
  · intro every wild run part all
    refine every (token :: run) (List.cons_prefix_cons.mpr ⟨rfl, part⟩) ?_
    rw [List.all_cons, wild, all]
    rfl
  · intro every run part all
    cases run with
    | nil => exact Nat.zero_le _
    | cons first run =>
        obtain ⟨rfl, inRest⟩ := List.cons_prefix_cons.mp part
        rw [List.all_cons, Bool.and_eq_true] at all
        exact every all.1 run inRest all.2

theorem starts_mark (limit : Nat) (rest : List PatternToken) :
    Starts (limit + 1) (.mark :: rest) ↔ Starts limit rest := by
  rw [starts_cons]
  simp only [List.count_cons_self, Nat.add_le_add_iff_right]
  exact forall_prop_of_true rfl

theorem starts_marks (limit : Nat) (rest : List PatternToken) :
    Starts limit (.marks :: rest) ↔ Starts limit rest := by
  have other (run : List PatternToken) :
      (PatternToken.marks :: run).count .mark = run.count .mark :=
    List.count_cons_of_ne (by decide)
  rw [starts_cons]
  simp only [other]
  exact forall_prop_of_true rfl

theorem apartFrom_iff (seen : Bool) (tokens : List PatternToken) :
    apartFrom seen tokens = true ↔ Starts (if seen then 0 else 1) tokens ∧ Apart tokens := by
  induction tokens generalizing seen with
  | nil =>
      refine iff_of_true rfl ⟨fun run part _ => ?_, fun run part _ => ?_⟩
      · rw [List.prefix_nil.mp part]
        exact Nat.zero_le _
      · rw [List.infix_nil.mp part]
        exact Nat.zero_le _
  | cons token rest ih =>
      rw [apart_cons]
      cases token with
      | pair high low isHigh isLow =>
          have any (limit : Nat) : Starts limit (.pair high low isHigh isLow :: rest) :=
            (starts_cons _ _ _).mpr fun wild => absurd wild Bool.false_ne_true
          rw [and_iff_right (any _), and_iff_right (any _)]
          exact (ih false).trans (and_iff_right_of_imp Apart.starts)
      | mark =>
          cases seen with
          | true =>
              refine iff_of_false Bool.false_ne_true fun both => ?_
              have one := both.1 [.mark] ⟨rest, rfl⟩ rfl
              contradiction
          | false =>
              refine (ih true).trans ?_
              rw [if_neg Bool.false_ne_true, starts_mark, if_pos rfl, ← and_assoc, and_self]
      | marks =>
          rw [starts_marks, starts_marks]
          refine (ih seen).trans (and_congr_right fun _ => ?_)
          exact (and_iff_right_of_imp Apart.starts).symm

/-- Exactly which tokens are read one by one, whatever white space is between them. Without it
they are wherever every wildcard is "??". -/
theorem readsTokens_iff (lead : { text : Text // text.all isSpace = true })
    (pieces : List PatternPiece) :
    let tokens := pieces.map (·.token)
    (ReadsTokens (spacedText lead pieces) tokens ↔ tokens ≠ [] ∧ Apart tokens) ∧
      ((∀ token ∈ tokens, token ≠ .mark) →
        (ReadsTokens (compactText tokens) tokens ↔ tokens ≠ [])) := by
  intro tokens
  have reads {text : Text} (compact : text.filter (fun c => !isSpace c) = compactText tokens) :
      ReadsTokens text tokens ↔ tokens ≠ [] ∧ Apart tokens := by
    obtain ⟨⟨pattern, parsed, _, same⟩, _⟩ := compactPattern_tokens tokens
    unfold ReadsTokens
    rw [parseHexPattern_compact compact, parsed]
    by_cases none_ : tokens = []
    · rw [if_pos none_]
      exact iff_of_false (by simp) fun some_ => some_.1 none_
    · rw [if_neg none_, Option.some.injEq, same, apartFrom_iff, and_iff_right none_]
      exact and_iff_right_of_imp Apart.starts
  refine ⟨reads (filter_spacedText lead pieces), fun marks => ?_⟩
  rw [reads (compactText_filter tokens)]
  refine and_iff_left fun run part _ => ?_
  rw [List.count_eq_zero.mpr]
  · exact Nat.zero_le 1
  · exact fun inside => marks _ (part.subset inside) rfl

/-- Two question marks with a blank between them are one wildcard. -/
theorem twoMarks_merged :
    parseHexPattern "? ?".toList = some ⟨[0], [0], rfl⟩ ∧
      ¬ ReadsTokens "? ?".toList [.mark, .mark] := by
  unfold ReadsTokens
  decide

end PointerLab.Domain
