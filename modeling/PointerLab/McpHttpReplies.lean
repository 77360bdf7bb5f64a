import Mathlib.Data.List.TakeWhile
import PointerLab.Digits
import PointerLab.McpHttpReads
import PointerLab.McpServer

set_option autoImplicit false

/- The replies of the server are well formed: its own parser reads out of one what went into it,
however it arrives. -/
namespace PointerLab.McpHttp

open ByteText GrowingReads OrderedMap McpServer

/-- A line that can stand in a head. -/
def IsLine (line : Bytes) : Prop := line ≠ [] ∧ 13 ∉ line

instance (line : Bytes) : Decidable (IsLine line) := inferInstanceAs (Decidable (_ ∧ _))

def joined (lines : List Bytes) : Bytes := List.intercalate lineEnd lines

theorem joined_cons {line next : Bytes} {rest : List Bytes} :
    joined (line :: next :: rest) = line ++ 13 :: 10 :: joined (next :: rest) := by
  rw [joined, List.intercalate_cons_cons, List.append_assoc]
  rfl

/-- What is joined begins as its first line does. -/
theorem joined_begins {line : Bytes} (isLine : IsLine line) (rest : List Bytes) :
    ∃ byte more, joined (line :: rest) = byte :: more ∧ byte ≠ 13 := by
  obtain ⟨nonempty, plain⟩ := isLine
  cases line with
  | nil => contradiction
  | cons byte line =>
      have other : byte ≠ 13 := fun same => plain (same ▸ List.mem_cons_self)
      cases rest with
      | nil => exact ⟨byte, line, List.intercalate_singleton, other⟩
      | cons next rest => exact ⟨byte, _, joined_cons, other⟩

/-- A line end in front of a line is not the end of the head. -/
theorem search_lineEnd {byte : UInt8} (other : byte ≠ 13) (rest : Bytes) :
    search terminator (13 :: 10 :: byte :: rest) =
      (search terminator (byte :: rest)).map (· + 2) := by
  have first : ¬ terminator <+: 13 :: 10 :: byte :: rest := by
    simp [terminator, List.cons_prefix_cons, other.symm]
  have second : ¬ terminator <+: 10 :: byte :: rest := by
    simp [terminator, List.cons_prefix_cons]
  rw [search, if_neg first, search, if_neg second, Option.map_map]
  rfl

theorem search_head {lines : List Bytes} (areLines : ∀ line ∈ lines, IsLine line) (body : Bytes) :
    search terminator (joined lines ++ (terminator ++ body)) = some (joined lines).length := by
  have here : search terminator (terminator ++ body) = some 0 := if_pos ⟨body, rfl⟩
  induction lines with
  | nil => exact here
  | cons line rest ih =>
      obtain ⟨isLine, later⟩ := List.forall_mem_cons.mp areLines
      cases rest with
      | nil =>
          rw [joined, List.intercalate_singleton, terminator, search_of_not_mem _ isLine.2]
          exact (congrArg (Option.map (· + line.length)) here).trans
            (congrArg some (Nat.zero_add _))
      | cons next rest =>
          obtain ⟨byte, more, begins, other⟩ := joined_begins (later next List.mem_cons_self) rest
          have found := ih later
          rw [begins, List.cons_append] at found
          rw [joined_cons, List.append_assoc, terminator, search_of_not_mem _ isLine.2,
            ← terminator, begins, List.cons_append, List.cons_append, List.cons_append,
            search_lineEnd other, found]
          simp only [Option.map_some, List.length_append, List.length_cons]
          congr 1
          omega

theorem linesFrom_line {line current : Bytes} (plain : 13 ∉ line) (rest : Bytes) :
    linesFrom current (line ++ 13 :: 10 :: rest) = (current ++ line) :: linesFrom [] rest := by
  induction line generalizing current with
  | nil => rw [List.nil_append, linesFrom, List.append_nil]
  | cons byte line ih =>
      obtain ⟨other, later⟩ := not_or.mp (mt List.mem_cons.mpr plain)
      rw [List.cons_append, linesFrom, ih later, List.append_assoc, List.singleton_append]
      exact fun _ same => absurd same.symm other

theorem linesFrom_last {line current : Bytes} (plain : 13 ∉ line) :
    linesFrom current line = [current ++ line] := by
  induction line generalizing current with
  | nil => rw [linesFrom, List.append_nil]
  | cons byte line ih =>
      obtain ⟨other, later⟩ := not_or.mp (mt List.mem_cons.mpr plain)
      rw [linesFrom, ih later, List.append_assoc, List.singleton_append]
      exact fun _ same => absurd same.symm other

theorem linesFrom_joined {lines : List Bytes} (some_ : lines ≠ [])
    (areLines : ∀ line ∈ lines, IsLine line) : linesFrom [] (joined lines) = lines := by
  induction lines with
  | nil => contradiction
  | cons line rest ih =>
      obtain ⟨isLine, later⟩ := List.forall_mem_cons.mp areLines
      cases rest with
      | nil => rw [joined, List.intercalate_singleton, linesFrom_last isLine.2, List.nil_append]
      | cons next rest =>
          rw [joined_cons, linesFrom_line isLine.2, List.nil_append,
            ih (List.cons_ne_nil _ _) later]

theorem isDigit_digitsText (value : Nat) : ∀ byte ∈ digitsText value, isDigit byte = true := by
  intro byte inside
  obtain ⟨c, listed, rfl⟩ := List.mem_map.mp inside
  obtain ⟨digit, small, rfl⟩ := Digits.mem_toDigits (by decide) listed
  have worth : ∀ digit < 10, isDigit (UInt8.ofNat (Nat.digitChar digit).toNat) = true := by decide
  exact worth digit small

theorem not_mem_digitsText {byte : UInt8} (other : isDigit byte = false) (value : Nat) :
    byte ∉ digitsText value := fun inside =>
  absurd (isDigit_digitsText value byte inside) (by simp [other])

theorem digitsText_ne_nil (value : Nat) : digitsText value ≠ [] := by
  simp [digitsText, Nat.toDigits_ne_nil]

/-- The digits of a number are worth the number. -/
theorem magnitude_digitsText (value : Nat) : magnitude (digitsText value) = value := by
  have worth : ∀ digit < 10, (UInt8.ofNat (Nat.digitChar digit).toNat).toNat - 48 = digit := by
    decide
  induction value using Nat.strongRecOn with
  | ind value ih =>
      unfold digitsText magnitude
      rw [Nat.toDigits_eq_if (by decide)]
      split
      · rename_i small
        simpa using worth value small
      · rename_i large
        have quotient := ih (value / 10) (Nat.div_lt_self (by omega) (by decide))
        unfold digitsText magnitude at quotient
        rw [List.map_append, List.foldl_append, quotient]
        have rest := worth (value % 10) (Nat.mod_lt _ (by decide))
        simp only [List.map_cons, List.map_nil, List.foldl_cons, List.foldl_nil, rest]
        omega

theorem stoll_digitsText {value : Nat} (within : value < 2 ^ 63) :
    stoll (digitsText value) = some (value : Int) := by
  have digits := isDigit_digitsText value
  cases text : digitsText value with
  | nil => exact absurd text (digitsText_ne_nil value)
  | cons first rest =>
      rw [text] at digits
      have digit := digits first List.mem_cons_self
      have unspaced : isSpace first = false := by
        rw [Bool.eq_false_iff]
        intro space
        simp only [isDigit, isSpace, Bool.and_eq_true, Bool.or_eq_true, decide_eq_true_eq,
          beq_iff_eq] at digit space
        rcases space with rfl | ⟨_, small⟩
        · exact absurd digit.1 (by decide)
        · exact absurd (UInt8.le_trans digit.1 small) (by decide)
      have minus : ((first :: rest).head? == some 45) = false := by
        rw [List.head?_cons, beq_eq_false_iff_ne]
        intro same
        rw [Option.some.inj same] at digit
        contradiction
      have plus : ((first :: rest).head? == some 43) = false := by
        rw [List.head?_cons, beq_eq_false_iff_ne]
        intro same
        rw [Option.some.inj same] at digit
        contradiction
      have all : (first :: rest).takeWhile isDigit = first :: rest :=
        List.takeWhile_eq_self_iff.mpr digits
      have worth : magnitude (first :: rest) = value := by rw [← text, magnitude_digitsText]
      unfold stoll
      rw [List.dropWhile_cons_of_neg (by rw [unspaced]; decide)]
      simp only [minus, plus, Bool.or_false, Bool.false_eq_true, if_false, all, worth,
        List.isEmpty_cons]
      exact if_pos (by omega)

theorem parseHeaderLine_eq {name : Bytes} (plain : 58 ∉ name) (request : HttpRequest)
    (value : Bytes) :
    parseHeaderLine request (name ++ 58 :: value) =
      .ok { request with
        headers := assign keyOrder (lower (trim name)) (trim value) request.headers } := by
  have found : search [58] (name ++ 58 :: value) = some name.length := by
    rw [search_of_not_mem _ plain, search, if_pos ⟨value, rfl⟩]
    simp
  unfold parseHeaderLine
  rw [found, if_neg (by simp)]
  simp

theorem parseRequestLine_eq {method target : Bytes} (plain : 32 ∉ method ∧ 32 ∉ target)
    (rest : Bytes) :
    parseRequestLine (method ++ 32 :: (target ++ 32 :: rest)) = .ok { method, target } := by
  have found : search [32] (method ++ 32 :: (target ++ 32 :: rest)) = some method.length := by
    rw [search_of_not_mem _ plain.1, search, if_pos ⟨_, rfl⟩]
    simp
  have untouched : ∀ byte ∈ target, (byte != 32) = true := by
    intro byte inside
    rw [bne_iff_ne]
    rintro rfl
    exact plain.2 inside
  unfold parseRequestLine
  rw [found]
  simp [List.takeWhile_append_of_pos untouched]

/-- The digits of a number have no blanks around them. -/
theorem trim_digitsText (value : Nat) : trim (32 :: digitsText value) = digitsText value := by
  have unblank (text : Bytes) (digits : ∀ byte ∈ text, isDigit byte = true) :
      text.dropWhile isBlank = text := by
    cases text with
    | nil => rfl
    | cons first rest =>
        have digit := digits first List.mem_cons_self
        refine List.dropWhile_cons_of_neg fun blank => ?_
        simp only [isBlank, Bool.or_eq_true, beq_iff_eq] at blank
        rcases blank with rfl | rfl <;> contradiction
  have digits := isDigit_digitsText value
  have back := unblank (digitsText value).reverse fun byte inside =>
    digits byte (List.mem_reverse.mp inside)
  have blank : isBlank 32 = true := rfl
  rw [trim, List.dropWhile_cons_of_pos blank, unblank _ digits, back, List.reverse_reverse]

/-- The blank in front of a value is not part of it. -/
theorem trim_blank (text : Bytes) : trim (32 :: text) = trim text := by
  have blank : isBlank 32 = true := rfl
  unfold trim
  rw [List.dropWhile_cons_of_pos blank]

/-- A content type is one line, short enough for a head. -/
structure IsContentType (contentType : Bytes) : Prop where
  plain : 13 ∉ contentType
  short : contentType.length ≤ 65000

def replyLines (status : Nat) (body contentType : Bytes) : List Bytes :=
  [ascii "HTTP/1.1" ++ 32 :: (digitsText status ++ 32 :: statusText status),
    ascii "Content-Type" ++ 58 :: 32 :: contentType,
    ascii "Content-Length" ++ 58 :: 32 :: digitsText body.length,
    ascii "Access-Control-Allow-Origin" ++ 58 :: ascii " null",
    ascii "Connection" ++ 58 :: ascii " close"]

theorem httpResponse_eq (status : Nat) (body contentType : Bytes) :
    httpResponse status body contentType =
      joined (replyLines status body contentType) ++ (terminator ++ body) := by
  simp [httpResponse, replyLines, joined, List.intercalate, lineEnd, terminator, ascii]

theorem statusText_plain (status : Nat) : 13 ∉ statusText status := by
  unfold statusText
  split <;> decide

theorem isLine_replyLines {status : Nat} {body contentType : Bytes}
    (isType : IsContentType contentType) :
    ∀ line ∈ replyLines status body contentType, IsLine line := by
  have digits (value : Nat) : 13 ∉ digitsText value := not_mem_digitsText (by decide) value
  have type := isType.plain
  have text := statusText_plain status
  have closed {name : Bytes} (plain : 13 ∉ name) {byte : UInt8} (other : byte ≠ 13) {rest : Bytes}
      (later : 13 ∉ rest) : IsLine (name ++ byte :: rest) :=
    ⟨by simp, by simp [plain, other.symm, later]⟩
  simp only [replyLines, List.forall_mem_cons]
  refine ⟨closed (by decide) (by decide) ?_, closed (by decide) (by decide) ?_,
    closed (by decide) (by decide) ?_, by decide, by decide,
    fun _ inside => absurd inside List.not_mem_nil⟩
  · simp [digits, text]
  · simp [type]
  · simp [digits]

/-- The head of the reply, as the parser of the requests reads it. -/
def headBack (status : Nat) (body contentType : Bytes) : HttpRequest where
  method := ascii "HTTP/1.1"
  target := digitsText status
  headers := [(ascii "access-control-allow-origin", ascii "null"),
    (ascii "connection", ascii "close"), (ascii "content-length", digitsText body.length),
    (ascii "content-type", trim contentType)]

theorem parseLines_replyLines (status : Nat) (body contentType : Bytes) :
    parseLines (replyLines status body contentType) = .ok (headBack status body contentType) := by
  have start : 32 ∉ ascii "HTTP/1.1" ∧ 32 ∉ digitsText status :=
    ⟨by decide, not_mem_digitsText (by decide) status⟩
  rw [replyLines, parseLines, parseRequestLine_eq start]
  simp only [List.foldlM_cons, List.foldlM_nil, bind, Except.bind, pure, Except.pure]
  rw [parseHeaderLine_eq (by decide)]
  dsimp only
  rw [parseHeaderLine_eq (by decide)]
  dsimp only
  rw [parseHeaderLine_eq (by decide)]
  dsimp only
  rw [parseHeaderLine_eq (by decide), trim_blank contentType, trim_digitsText]
  rfl

section Reply

variable {status : Nat} {body contentType : Bytes} (isType : IsContentType contentType)
  (within : body.length ≤ bodyLimit)
include isType within

theorem parseHead_replyLines :
    parseHead (joined (replyLines status body contentType)) =
      .ok (headBack status body contentType, body.length) := by
  have length : contentLength (headBack status body contentType) = .ok body.length := by
    have header : (headBack status body contentType).header (ascii "content-length") =
        digitsText body.length := rfl
    have limit : bodyLimit < 2 ^ 63 := by decide
    unfold contentLength
    rw [header]
    dsimp only
    rw [stoll_digitsText (by omega)]
    simp [digitsText_ne_nil]
  have encoding : search (ascii "chunked")
      (lower ((headBack status body contentType).header (ascii "transfer-encoding"))) = none :=
    rfl
  have lines : linesFrom [] (joined (replyLines status body contentType)) =
      replyLines status body contentType :=
    linesFrom_joined (List.cons_ne_nil _ _) (isLine_replyLines isType)
  unfold parseHead
  rw [lines, parseLines_replyLines]
  simp only [bind, Except.bind]
  rw [length]
  dsimp only
  rw [encoding, if_neg (Nat.not_lt.mpr within)]
  rfl

omit within in
theorem search_httpResponse (more : Bytes) :
    search terminator (httpResponse status body contentType ++ more) =
      some (joined (replyLines status body contentType)).length := by
  rw [httpResponse_eq, List.append_assoc, List.append_assoc]
  exact search_head (isLine_replyLines isType) _

/-- Whatever follows it, a reply is read as what went into it, to its end. -/
theorem parseHttpRequest_reply (more : Bytes) :
    parseHttpRequest (httpResponse status body contentType ++ more) =
      .complete { headBack status body contentType with body }
        (httpResponse status body contentType).length := by
  have start : (joined (replyLines status body contentType) ++ terminator).length =
      (joined (replyLines status body contentType)).length + 4 := by
    rw [List.length_append, terminator_length]
  unfold parseHttpRequest
  rw [search_httpResponse isType]
  dsimp only
  rw [httpResponse_eq, List.append_assoc, List.take_left, parseHead_replyLines isType within]
  dsimp only
  rw [← start, List.append_assoc, ← List.append_assoc, List.drop_left, List.take_left,
    if_neg (by simp; omega), ← List.append_assoc]
  congr 1
  simp only [List.length_append]

/-- The head is short enough to arrive in any pieces. -/
theorem joined_short (numbered : status < 2 ^ 31) :
    (joined (replyLines status body contentType)).length ≤ safeHeaderEnd := by
  have digits {value : Nat} (small : value < 10 ^ 10) : (digitsText value).length ≤ 10 := by
    rw [digitsText, List.length_map]
    exact (Nat.length_toDigits_le_iff (by decide) (by decide)).mpr small
  have text : (statusText status).length ≤ 31 := by
    unfold statusText
    split <;> decide
  have type := isType.short
  have number := @digits status (by omega)
  have limit : bodyLimit = 4194304 := rfl
  have length := @digits body.length (by omega)
  have safe : safeHeaderEnd = 65533 := rfl
  have names : (ascii "HTTP/1.1").length = 8 ∧ (ascii "Content-Type").length = 12 ∧
      (ascii "Content-Length").length = 14 ∧ (ascii "Access-Control-Allow-Origin").length = 27 ∧
      (ascii " null").length = 5 ∧ (ascii "Connection").length = 10 ∧
      (ascii " close").length = 6 := by decide
  have ends : lineEnd.length = 2 := rfl
  simp only [joined, replyLines, List.intercalate, List.intersperse, List.flatten_cons,
    List.flatten_nil, List.length_append, List.length_cons, List.length_nil, safe, ends]
  omega

/-- A reply of the server, read as it reads requests, is what went into it, however it is cut on
the way. -/
theorem readRequest_reply (numbered : status < 2 ^ 31) {chunks : List Bytes}
    (cut : Cut chunkSize (httpResponse status body contentType) chunks) :
    readRequest chunks =
      some (.complete { headBack status body contentType with body }
        (httpResponse status body contentType).length) := by
  have found := @search_httpResponse status body contentType isType []
  have whole := @parseHttpRequest_reply status body contentType isType within []
  rw [List.append_nil] at found whole
  have stable : Stable decided (httpResponse status body contentType) := by
    apply stable_of_safe
    intro headerEnd place
    rw [← Option.some.inj (found.symm.trans place)]
    exact joined_short isType within numbered
  rw [readRequest, readLoop_of_stable stable (by rw [List.nil_append, cut.whole]), decided, whole]
  rfl

end Reply

theorem readRequest_reply_singles :
    readRequest ((httpResponse 200 (ascii "\x7b\x7d") json).map fun byte => [byte]) =
      some (.complete { headBack 200 (ascii "\x7b\x7d") json with body := ascii "\x7b\x7d" }
        (httpResponse 200 (ascii "\x7b\x7d") json).length) :=
  readRequest_reply ⟨by decide, by decide⟩ (by decide) (by decide)
    (cut_singles chunkSize (by decide) _)

end PointerLab.McpHttp
