import PointerLab.ScanValues

set_option autoImplicit false

/- The data lines of a script, token by token: what `parseData` makes of them and which it reads
without losing a digit. -/
namespace PointerLab.AutoAssembler

open Domain Digits

def isDataSeparator (c : Char) : Bool := c == ',' || c == ' ' || c == '\t'

/-- A token, and what stands between it and the text before it. -/
structure DataPiece where
  gap : Text
  token : Text
  wide : gap ≠ []
  separates : ∀ c ∈ gap, isDataSeparator c = true
  nonempty : token ≠ []
  solid : ∀ c ∈ token, isDataSeparator c = false ∧ c ≠ '\n'

/-- Pieces, and separators behind the last. -/
def dataBody (pieces : List DataPiece) (trail : Text) : Text :=
  (pieces.flatMap fun piece => piece.gap ++ piece.token) ++ trail

/-- A line of a `db`, `dw`, `dd` or `dq`. White space ends the mnemonic. -/
structure DataLine where
  lead : Text
  mnemonic : Text
  pieces : List DataPiece
  trail : Text
  blank : ∀ c ∈ lead, isSpace c = true
  known : dataWidth (lower mnemonic) ≠ 0
  starts : ∀ c ∈ (dataBody pieces trail).head?, isSpace c = true
  ends : ∀ c ∈ trail, isDataSeparator c = true

namespace DataLine

def tokens (line : DataLine) : List Text := line.pieces.map (·.token)

def width (line : DataLine) : Nat := dataWidth (lower line.mnemonic)

/-- What follows the mnemonic. -/
def body (line : DataLine) : Text := dataBody line.pieces line.trail

def text (line : DataLine) : Text := line.lead ++ (line.mnemonic ++ line.body)

end DataLine

/-- The hexadecimal digits of a token. -/
def tokenDigits (token : Text) : Text :=
  let value := token.filter fun c => !isSpace c
  match value with
  | '0' :: 'x' :: rest => rest
  | '0' :: 'X' :: rest => rest
  | _ => value

/-- The number that a token denotes, of any size. -/
def denoted (token : Text) : Nat := number 16 (tokenDigits token)

/-- The token is not empty hexadecimal digits, or more than sixteen of them. -/
def Unreadable (token : Text) : Prop :=
  tokenDigits token = [] ∨ (∃ c ∈ tokenDigits token, isHexDigit c = false) ∨
    16 < (tokenDigits token).length

/-- Token by token, in order: so many bytes, which are its number with the lowest byte first. -/
def Encodes (width : Nat) (tokens : List Text) (bytes : List UInt8) : Prop :=
  ∃ chunks : List (List UInt8), bytes = chunks.flatten ∧
    List.Forall₂ (fun token chunk => chunk.length = width ∧ littleEndian chunk = denoted token)
      tokens chunks

/-- What the parser accepts of the line encodes its tokens. -/
def DataLine.Faithful (line : DataLine) : Prop :=
  ∀ bytes, parseData line.text = some bytes → Encodes line.width line.tokens bytes

theorem parseAddress_eq (token : Text) :
    (parseAddress token = none ↔ Unreadable token) ∧
      (¬ Unreadable token → parseAddress token = some (denoted token)) := by
  have same : parseAddress token =
      if (tokenDigits token).isEmpty || (tokenDigits token).any (fun c => !isHexDigit c) ||
        16 < (tokenDigits token).length then none else some (denoted token) := rfl
  have refused : ((tokenDigits token).isEmpty || (tokenDigits token).any (fun c => !isHexDigit c) ||
      16 < (tokenDigits token).length) = true ↔ Unreadable token := by
    simp [Unreadable, or_assoc]
  rw [same]
  split
  · rename_i unreadable
    exact ⟨iff_of_true rfl (refused.mp unreadable), fun readable =>
      absurd (refused.mp unreadable) readable⟩
  · rename_i readable
    exact ⟨iff_of_false (by simp) fun unreadable => readable (refused.mpr unreadable),
      fun _ => rfl⟩

/-- The tokens of a text. -/
def dataWords (text : Text) : List Text :=
  (text.splitOnP isDataSeparator).filter (!·.isEmpty)

theorem dataWords_separator {c : Char} (separates : isDataSeparator c = true) (left right : Text) :
    dataWords (left ++ c :: right) = dataWords left ++ dataWords right := by
  unfold dataWords
  rw [List.splitOnP_append_cons left right separates, List.filter_append]

theorem dataWords_gap {gap : Text} (separates : ∀ c ∈ gap, isDataSeparator c = true)
    (text : Text) : dataWords (gap ++ text) = dataWords text := by
  induction gap with
  | nil => rfl
  | cons c rest ih =>
      have first := dataWords_separator (separates c List.mem_cons_self) [] (rest ++ text)
      rw [List.cons_append, ← List.nil_append (c :: (rest ++ text)), first]
      exact ih fun other inRest => separates other (List.mem_cons_of_mem _ inRest)

theorem dataWords_solid {token : Text} (nonempty : token ≠ [])
    (solid : ∀ c ∈ token, isDataSeparator c = false) : dataWords token = [token] := by
  unfold dataWords
  rw [List.splitOnP_eq_singleton solid]
  simp [nonempty]

/-- A token ends where a separator follows, or the text. -/
theorem dataWords_token {token : Text} (nonempty : token ≠ [])
    (solid : ∀ c ∈ token, isDataSeparator c = false) {rest : Text}
    (ends : ∀ c ∈ rest.head?, isDataSeparator c = true) :
    dataWords (token ++ rest) = token :: dataWords rest := by
  cases rest with
  | nil =>
      rw [List.append_nil, dataWords_solid nonempty solid]
      rfl
  | cons c rest =>
      have separates := ends c rfl
      have first := dataWords_separator separates [] rest
      rw [List.nil_append] at first
      rw [dataWords_separator separates, dataWords_solid nonempty solid, first]
      rfl

theorem dataWords_body (line : DataLine) : dataWords line.body = line.tokens := by
  have trail := line.ends
  unfold DataLine.body DataLine.tokens dataBody
  induction line.pieces with
  | nil =>
      have all := dataWords_gap trail []
      rw [List.append_nil] at all
      exact all
  | cons piece rest ih =>
      rw [List.flatMap_cons, List.append_assoc, List.append_assoc, dataWords_gap piece.separates,
        dataWords_token piece.nonempty (fun c inside => (piece.solid c inside).1), ih]
      · rfl
      · intro c first
        cases rest with
        | nil => exact trail c (List.mem_of_mem_head? first)
        | cons next more =>
            rw [List.flatMap_cons, List.append_assoc, List.append_assoc,
              List.head?_append_of_ne_nil _ next.wide] at first
            exact next.separates c (List.mem_of_mem_head? first)

theorem space_not_in_mnemonic {mnemonic : Text} (known : dataWidth (lower mnemonic) ≠ 0) :
    ∀ c ∈ mnemonic, isSpace c = false := by
  intro c inside
  have listed : c.toLower ∈ lower mnemonic := List.mem_map_of_mem inside
  have letters : (lower mnemonic).all (fun other => !isSpace other) = true := by
    unfold dataWidth at known
    split at known
    · rename_i same
      rw [same]
      decide
    · split at known
      · rename_i same
        rw [same]
        decide
      · split at known
        · rename_i same
          rw [same]
          decide
        · split at known
          · rename_i same
            rw [same]
            decide
          · contradiction
  rw [Bool.eq_false_iff]
  intro space
  have same : c.toLower = c := by
    simp only [isSpace, Bool.or_eq_true, beq_iff_eq] at space
    rcases space with ((((rfl | rfl) | rfl) | rfl) | rfl) | rfl <;> decide
  have letter := List.all_eq_true.mp letters _ listed
  rw [same, space] at letter
  contradiction

namespace DataLine

variable (line : DataLine)

theorem body_line : ∀ c ∈ line.body, (c != '\n') = true := by
  intro c inside
  rw [bne_iff_ne]
  have separator {c : Char} (separates : isDataSeparator c = true) : c ≠ '\n' := by
    rintro rfl
    contradiction
  rcases List.mem_append.mp inside with pieces | trail
  · obtain ⟨piece, _, both⟩ := List.mem_flatMap.mp pieces
    rcases List.mem_append.mp both with gap | token
    · exact separator (piece.separates c gap)
    · exact (piece.solid c token).2
  · exact separator (line.ends c trail)

/-- How the line comes apart. -/
theorem text_parts :
    line.text.dropWhile isSpace = line.mnemonic ++ line.body ∧
      (line.mnemonic ++ line.body).takeWhile (fun c => !isSpace c) = line.mnemonic ∧
      (line.mnemonic ++ line.body).dropWhile (fun c => !isSpace c) = line.body := by
  have letters := space_not_in_mnemonic line.known
  have solid : ∀ c ∈ line.mnemonic, (!isSpace c) = true := by
    intro c inside
    rw [letters c inside]
    rfl
  have stops : line.body.takeWhile (fun c => !isSpace c) = [] ∧
      line.body.dropWhile (fun c => !isSpace c) = line.body := by
    have first : ∀ c ∈ line.body.head?, isSpace c = true := line.starts
    cases body : line.body with
    | nil => exact ⟨rfl, rfl⟩
    | cons c rest =>
        rw [body] at first
        have space := first c rfl
        exact ⟨List.takeWhile_cons_of_neg (by simp [space]),
          List.dropWhile_cons_of_neg (by simp [space])⟩
  refine ⟨?_, ?_, ?_⟩
  · unfold text
    rw [List.dropWhile_append_of_pos line.blank]
    apply dropWhile_eq_self
    intro c first
    cases mnemonic : line.mnemonic with
    | nil =>
        have known := line.known
        rw [mnemonic] at known
        exact absurd rfl known
    | cons letter rest =>
        rw [mnemonic] at first letters
        obtain rfl : letter = c := Option.some.inj first
        exact letters letter List.mem_cons_self
  · rw [List.takeWhile_append_of_pos solid, stops.1, List.append_nil]
  · rw [List.dropWhile_append_of_pos solid, stops.2]

/-- The parser reads the tokens of the line, in order. -/
theorem parseData_text :
    parseData line.text =
      match line.tokens.mapM parseAddress with
      | none => none
      | some values =>
          if (values.flatMap (littleEndianBytes line.width)).isEmpty then none
          else some (values.flatMap (littleEndianBytes line.width)) := by
  obtain ⟨unread, mnemonic, rest⟩ := line.text_parts
  have whole : line.body.takeWhile (· != '\n') = line.body :=
    List.takeWhile_eq_self_iff.mpr line.body_line
  have words : (line.body.splitOnP fun c => c == ',' || c == ' ' || c == '\t').filter
      (!·.isEmpty) = line.tokens := dataWords_body line
  unfold parseData
  simp only [unread, mnemonic, rest, whole, words]
  rw [if_neg line.known]
  rfl

theorem mapM_readable {tokens : List Text} (readable : ∀ token ∈ tokens, ¬ Unreadable token) :
    tokens.mapM parseAddress = some (tokens.map denoted) := by
  induction tokens with
  | nil => rfl
  | cons token rest ih =>
      rw [List.mapM_cons, (parseAddress_eq token).2 (readable token List.mem_cons_self),
        ih fun other inRest => readable other (List.mem_cons_of_mem _ inRest)]
      rfl

theorem mapM_unreadable {tokens : List Text} {token : Text} (listed : token ∈ tokens)
    (unreadable : Unreadable token) : tokens.mapM parseAddress = none := by
  induction tokens with
  | nil => contradiction
  | cons first rest ih =>
      rw [List.mapM_cons]
      rcases List.mem_cons.mp listed with rfl | inRest
      · rw [(parseAddress_eq token).1.mpr unreadable]
        rfl
      · rw [ih inRest]
        cases parseAddress first <;> rfl

end DataLine

/-- What is encoded fits. -/
theorem Encodes.fits {width : Nat} {tokens : List Text} {bytes : List UInt8}
    (encodes : Encodes width tokens bytes) : ∀ token ∈ tokens, denoted token < 256 ^ width := by
  obtain ⟨chunks, rfl, each⟩ := encodes
  induction each with
  | nil => exact fun _ inside => absurd inside List.not_mem_nil
  | @cons first chunk rest chunks here _ ih =>
      have below := littleEndian_lt chunk
      rw [here.2, here.1] at below
      exact List.forall_mem_cons.mpr ⟨below, ih⟩

/-- Exactly which data lines are read without losing a digit. -/
theorem faithful_iff (line : DataLine) :
    line.Faithful ↔ (∃ token ∈ line.tokens, Unreadable token) ∨
      ∀ token ∈ line.tokens, denoted token < 256 ^ line.width := by
  by_cases unreadable : ∃ token ∈ line.tokens, Unreadable token
  · refine iff_of_true (fun bytes accepted => ?_) (Or.inl unreadable)
    obtain ⟨token, listed, bad⟩ := unreadable
    rw [line.parseData_text, DataLine.mapM_unreadable listed bad] at accepted
    contradiction
  · have readable : ∀ token ∈ line.tokens, ¬ Unreadable token :=
      fun token listed bad => unreadable ⟨token, listed, bad⟩
    have parsed := line.parseData_text
    rw [DataLine.mapM_readable readable] at parsed
    dsimp only at parsed
    rw [or_iff_right unreadable]
    constructor
    · intro faithful token listed
      have some_ : (line.tokens.map denoted).flatMap (littleEndianBytes line.width) ≠ [] := by
        intro none_
        have each := List.flatMap_eq_nil_iff.mp none_ _ (List.mem_map_of_mem listed)
        have length := littleEndianBytes_length line.width (denoted token)
        rw [each] at length
        exact line.known length.symm
      rw [if_neg (by rwa [List.isEmpty_iff])] at parsed
      exact (faithful _ parsed).fits token listed
    · intro fits bytes accepted
      rw [parsed] at accepted
      split at accepted
      · contradiction
      · refine ⟨line.tokens.map fun token => littleEndianBytes line.width (denoted token), ?_, ?_⟩
        · rw [← Option.some.inj accepted, List.flatMap_map, List.flatMap_def]
        · rw [List.forall₂_map_right_iff, List.forall₂_same]
          intro token listed
          refine ⟨littleEndianBytes_length _ _, ?_⟩
          rw [littleEndian_littleEndianBytes, Nat.mod_eq_of_lt (fits token listed)]

/-- A run of bytes written as one token. -/
def runPiece : DataPiece where
  gap := [' ']
  token := "9090".toList
  wide := by decide
  separates := List.all_eq_true.mp (by decide)
  nonempty := by decide
  solid := by
    have plain : "9090".toList.all (fun c => !isDataSeparator c && c != '\n') = true := by decide
    intro c inside
    have here := List.all_eq_true.mp plain c inside
    rw [Bool.and_eq_true, Bool.not_eq_true', bne_iff_ne] at here
    exact here

def runLine : DataLine where
  lead := []
  mnemonic := "db".toList
  pieces := [runPiece]
  trail := []
  blank := List.forall_mem_nil _
  known := by decide
  starts := by
    intro c first
    cases first
    rfl
  ends := List.forall_mem_nil _

/-- One byte of it is left. -/
theorem runLine_cut :
    runLine.text = "db 9090".toList ∧ parseData runLine.text = some [0x90] ∧
      ¬ runLine.Faithful := by
  refine ⟨rfl, by decide, fun faithful => ?_⟩
  have fits := (faithful [0x90] (by decide)).fits "9090".toList (by decide)
  exact absurd fits (by decide)

end PointerLab.AutoAssembler
