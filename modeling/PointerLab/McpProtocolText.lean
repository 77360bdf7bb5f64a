import Mathlib.Data.List.Basic
import PointerLab.McpProtocol
import PointerLab.Runs

set_option autoImplicit false

/- When `Protocol::handle` gives a reply at all: serialising happens outside its `try`, so
every text that gets into a response has to be UTF-8. -/
namespace PointerLab.McpProtocol

open ByteText Runs

namespace Json

theorem field_valid {name : Bytes} {fields : List (Bytes × Json)} {value : Json}
    (valid : validFields fields = true) (found : field name fields = some value) :
    value.valid = true := by
  induction fields with
  | nil => contradiction
  | cons entry rest ih =>
      obtain ⟨key, first⟩ := entry
      simp only [validFields, Bool.and_eq_true] at valid
      unfold field at found
      split at found
      · cases found
        exact valid.1.2
      · exact ih valid.2 found

theorem field_getD_valid {name : Bytes} {fields : List (Bytes × Json)} {default : Json}
    (valid : validFields fields = true) (plain : default.valid = true) :
    ((field name fields).getD default).valid = true := by
  cases found : field name fields with
  | none => exact plain
  | some value => exact field_valid valid found

theorem validItems_iff {items : List Json} :
    validItems items = true ↔ ∀ item ∈ items, item.valid = true := by
  induction items with
  | nil => simp [validItems]
  | cons item rest ih => simp [validItems, ih]

theorem isNull_eq {json : Json} (null : json.isNull = true) : json = .null := by
  cases json <;> first | rfl | contradiction

end Json

@[simp] theorem valid_errorResponse (id : Json) (code : Int) (message : Bytes) :
    (errorResponse id code message).valid = (id.valid && utf8 message) := by
  simp [isPlain, errorResponse, Json.valid, Json.validFields, utf8_literal]

@[simp] theorem valid_okResponse (id result : Json) :
    (okResponse id result).valid = (id.valid && result.valid) := by
  simp [isPlain, okResponse, Json.valid, Json.validFields, utf8_literal]

@[simp] theorem valid_content (text : Bytes) (isError : Bool) :
    (content text isError).valid = utf8 text := by
  simp [isPlain, content, Json.valid, Json.validFields, Json.validItems,
    utf8_literal]

@[simp] theorem isNull_errorResponse (id : Json) (code : Int) (message : Bytes) :
    (errorResponse id code message).isNull = false := rfl

@[simp] theorem isNull_okResponse (id result : Json) : (okResponse id result).isNull = false :=
  rfl

namespace Protocol

variable {World : Type} {p : Protocol World}

theorem ascii_digits (value : Nat) : Ascii (ascii (String.ofList (Nat.toDigits 10 value))) := by
  intro byte member
  obtain ⟨c, digit, rfl⟩ := List.mem_map.mp member
  rw [String.toList_ofList] at digit
  have small := Nat.isDigit_of_mem_toDigits (by decide) (by decide) digit
  simp only [Char.isDigit, Bool.and_eq_true, decide_eq_true_eq] at small
  have bound : c.toNat ≤ 57 := small.2
  rw [UInt8.lt_iff_toNat_lt, UInt8.toNat_ofNat']
  show c.toNat % 256 < 128
  omega

/-- The code of a failure adds only ASCII to its text. -/
theorem utf8_failure (error : Bytes) (code : Nat) : utf8 (failure error code) = utf8 error := by
  unfold failure
  split
  · rw [← List.append_assoc, ← List.append_assoc, utf8_append_ascii (ascii_literal (by simp [isPlain])),
      utf8_append_ascii (ascii_digits code), utf8_append_ascii (ascii_literal (by simp [isPlain]))]
  · rfl

theorem utf8_agreedVersion {params : Json} (valid : params.valid = true) :
    utf8 (agreedVersion params) = true := by
  unfold agreedVersion
  split
  · rename_i fields
    split
    · rename_i version found
      have wellFormed := Json.field_valid valid found
      exact wellFormed
    · exact utf8_literal (by simp [isPlain])
  · exact utf8_literal (by simp [isPlain])

theorem utf8_instructions : utf8 instructions = true := by
  simp [instructions, isPlain, utf8_append, utf8_literal]

theorem valid_initializeResult {params : Json} (valid : params.valid = true) :
    (p.initializeResult params).valid = true := by
  simp [isPlain, initializeResult, Json.valid, Json.validFields, utf8_literal, utf8_instructions,
    utf8_agreedVersion valid, p.version_utf8]

theorem valid_listed : (Json.array (p.tools.map Tool.listed)).valid = true := by
  rw [Json.valid, Json.validItems_iff]
  intro item member
  obtain ⟨tool, inList, rfl⟩ := List.mem_map.mp member
  exact p.tools_valid tool inList

/-- The tool, with its arguments, whose answer an entry waits for. -/
def calledTool : Json → Option (Bytes × Json)
  | .object fields =>
      if (idOf fields).isNull then none
      else
        match Json.field (ascii "method") fields with
        | some (.string method) =>
            if method = ascii "tools/call" then toolAndArguments (paramsOf fields) else none
        | _ => none
  | _ => none

/-- The tool that an entry calls fails, if it fails, with a text in UTF-8. -/
def SaysUtf8 (p : Protocol World) (world : World) (entry : Json) : Prop :=
  ∀ name arguments, calledTool entry = some (name, arguments) →
    utf8 (p.call name arguments world).2.text = true

/-- The world after an entry of a batch. -/
def entryStep (p : Protocol World) (world : World) (entry : Json) : World :=
  (p.dispatch entry world).1

theorem valid_unlessNotification (notification : Bool) (response : Json) :
    (unlessNotification notification response).valid =
      (notification || response.valid) := by
  cases notification <;> rfl

/-- What a tool call says is valid exactly when the tool's text is UTF-8. -/
theorem callTool_valid {id : Json} (idValid : id.valid = true) (params : Json)
    (world : World) :
    (caught id false ((p.callTool params world).2.map fun result => okResponse id result)).valid =
        true ↔
      ∀ name arguments, toolAndArguments params = some (name, arguments) →
        utf8 (p.call name arguments world).2.text = true := by
  unfold callTool
  cases called : toolAndArguments params with
  | none =>
      simp only [Except.map, caught, valid_okResponse, valid_content, idValid, Bool.true_and]
      refine iff_of_true (utf8_literal (by simp [isPlain])) ?_
      intro name arguments some_
      contradiction
  | some both =>
      obtain ⟨name, arguments⟩ := both
      have one : (∀ other others, some (name, arguments) = some (other, others) →
          utf8 (p.call other others world).2.text = true) ↔
          utf8 (p.call name arguments world).2.text = true := by
        constructor
        · exact fun every => every name arguments rfl
        · intro valid other others same
          cases same
          exact valid
      rw [one]
      simp only []
      cases outcome : p.call name arguments world with
      | mk after result =>
          cases result with
          | threw what =>
              simp [isPlain, Except.map, caught, Outcome.text, idValid, utf8_append, utf8_literal]
          | failed error code =>
              simp [Except.map, caught, Outcome.text, idValid, utf8_failure]
          | ok value =>
              cases dumped : p.json.dumpIndented value with
              | ok text =>
                  simp [Except.map, caught, Outcome.text, idValid, dumped,
                    p.json.indented_utf8 dumped]
              | error what =>
                  simp [Except.map, caught, unlessNotification, Outcome.text, idValid, dumped,
                    p.json.indented_error_utf8 dumped]

theorem idOf_valid {fields : List (Bytes × Json)} (valid : Json.validFields fields = true) :
    (idOf fields).valid = true := Json.field_getD_valid valid rfl

theorem paramsOf_valid {fields : List (Bytes × Json)} (valid : Json.validFields fields = true) :
    (paramsOf fields).valid = true := Json.field_getD_valid valid rfl

/-- Nothing of a call is answered to a notification, not even its exception. -/
theorem caught_dropped (id : Json) (result : Except Bytes Json) (response : Json → Json) :
    caught id true (result.map fun value => unlessNotification true (response value)) = .null := by
  cases result <;> rfl

/-- Which method's response carries a text that is not the protocol's own. -/
theorem perform_valid {id params : Json} {method : Bytes} (notification : Bool)
    (idValid : id.valid = true) (paramsValid : params.valid = true)
    (methodValid : utf8 method = true) (world : World) :
    (caught id notification (p.perform id notification method params world).2).valid = true ↔
      (method = ascii "tools/call" → notification = false →
        ∀ name arguments, toolAndArguments params = some (name, arguments) →
          utf8 (p.call name arguments world).2.text = true) := by
  have unasked : method ≠ ascii "tools/call" →
      (method = ascii "tools/call" → notification = false →
        ∀ name arguments, toolAndArguments params = some (name, arguments) →
          utf8 (p.call name arguments world).2.text = true) :=
    fun other same => absurd same other
  unfold perform
  split
  · rename_i same
    refine iff_of_true ?_ (unasked (by rw [same]; decide))
    simp [caught, idValid, valid_initializeResult paramsValid]
  · split
    · rename_i either
      refine iff_of_true rfl (unasked ?_)
      rcases either with same | same <;> rw [same] <;> decide
    · split
      · rename_i same
        refine iff_of_true ?_ (unasked (by rw [same]; decide))
        simp [caught, valid_unlessNotification, idValid, Json.valid, Json.validFields]
      · split
        · rename_i same
          refine iff_of_true ?_ (unasked (by rw [same]; decide))
          have tools_plain : isPlain "tools" = true := by simp [isPlain]
          have listed := @valid_listed _ p
          simp only [caught, valid_okResponse, idValid, Json.valid, Json.validFields,
            utf8_literal tools_plain, Bool.and_true, Bool.true_and] at listed ⊢
          exact listed
        · split
          · rename_i same
            cases notification with
            | true =>
                refine iff_of_true ?_ (fun _ waits => absurd waits (by decide))
                simp only [caught_dropped]
                rfl
            | false =>
                simp only [same, true_implies]
                exact callTool_valid idValid params world
          · rename_i other
            refine iff_of_true ?_ (unasked other)
            split
            · simp [isPlain, caught, idValid, Json.valid, Json.validFields,
                Json.validItems, utf8_literal]
            · split
              · simp [isPlain, caught, idValid, Json.valid, Json.validFields,
                  Json.validItems, utf8_literal]
              · have asked : utf8 (ascii "There is no method called \"" ++ method ++
                    ascii "\".") = true := by
                  rw [utf8_append_ascii (ascii_literal (by simp [isPlain])), utf8_ascii_append (ascii_literal (by simp [isPlain])), methodValid]
                simp only [caught, valid_unlessNotification, valid_errorResponse, idValid, asked,
                  Bool.and_self, Bool.or_true]

/-- A response is valid exactly when the tool's text in it, if there is one, is UTF-8. -/
theorem dispatch_valid {entry : Json} (valid : entry.valid = true) (world : World) :
    (p.dispatch entry world).2.valid = true ↔ SaysUtf8 p world entry := by
  cases entry with
  | object fields =>
      have idValid := idOf_valid valid
      cases named : Json.field (ascii "method") fields with
      | none =>
          refine iff_of_true ?_ (by simp [SaysUtf8, calledTool, named])
          simp [isPlain, dispatch, named, valid_unlessNotification, idValid,
            utf8_literal]
      | some value =>
          cases value with
          | string method =>
              have methodValid : utf8 method = true := Json.field_valid valid named
              simp only [dispatch, SaysUtf8, calledTool, named]
              rw [perform_valid _ idValid (paramsOf_valid valid) methodValid]
              by_cases null : (idOf fields).isNull = true
              · simp [null]
              · by_cases call : method = ascii "tools/call"
                · simp [null, call]
                · simp [call]
          | _ =>
              refine iff_of_true ?_ (by simp [SaysUtf8, calledTool, named])
              simp [isPlain, dispatch, named, valid_unlessNotification, idValid,
                utf8_literal]
  | _ =>
      refine iff_of_true ?_ (by simp [SaysUtf8, calledTool])
      simp [isPlain, dispatch, Json.valid, utf8_literal]

/-- The responses to a batch are valid exactly when, entry by entry, the tools say UTF-8. -/
theorem dispatchEach_valid {entries : List Json} (valid : ∀ entry ∈ entries, entry.valid = true)
    (world : World) :
    (∀ response ∈ (p.dispatchEach entries world).2, response.valid = true) ↔
      Follows (entryStep p) (SaysUtf8 p) world entries := by
  induction entries generalizing world with
  | nil => simp [dispatchEach, Follows]
  | cons entry rest ih =>
      have first := dispatch_valid (p := p) (valid entry List.mem_cons_self) world
      have later := ih (fun other inRest => valid other (List.mem_cons_of_mem _ inRest))
        (p.dispatch entry world).1
      rw [Follows, ← first, entryStep, ← later, dispatchEach]
      by_cases null : (p.dispatch entry world).2.isNull = true
      · have valid_null : (p.dispatch entry world).2.valid = true := by
          rw [Json.isNull_eq null]
          rfl
        simp [null, valid_null]
      · simp [null]

/-- The entries of a batch, or the only one. -/
def entriesOf : Json → List Json
  | .array items => items
  | request => [request]

theorem entriesOf_valid {request : Json} (valid : request.valid = true) :
    ∀ entry ∈ entriesOf request, entry.valid = true := by
  cases request with
  | array items => exact Json.validItems_iff.mp valid
  | _ =>
      intro entry member
      rw [List.mem_singleton.mp member]
      exact valid

theorem respond_valid {request : Json} (valid : request.valid = true) (world : World) :
    (∀ response, (p.respond request world).2 = some response → response.valid = true) ↔
      Follows (entryStep p) (SaysUtf8 p) world (entriesOf request) := by
  have each := dispatchEach_valid (p := p) (entriesOf_valid valid) world
  rw [← each]
  cases request with
  | array items =>
      cases items with
      | nil =>
          refine iff_of_true ?_ (by simp [entriesOf, dispatchEach])
          intro response same
          cases same
          decide
      | cons item rest =>
          simp only [respond, entriesOf]
          cases responses : (p.dispatchEach (item :: rest) world).2 with
          | nil => simp
          | cons response others => simp [Json.valid, Json.validItems_iff, Json.validItems]
  | _ =>
      simp only [respond, entriesOf, dispatchEach]
      split <;> simp

theorem returns_of_parsed {body : Bytes} {request : Json} (parses : p.json.parse body = .ok request)
    (world : World) :
    (∃ reply, (p.handle body world).2 = .ok reply) ↔
      Follows (entryStep p) (SaysUtf8 p) world (entriesOf request) := by
  simp only [handle, parses]
  rw [← respond_valid (p.json.parse_valid parses) world]
  cases (p.respond request world).2 with
  | none => simp
  | some response => simp [p.json.dump_ok]

/-- A reply comes exactly when every text that gets into the response is UTF-8. -/
theorem handle_returns_iff {World : Type} (p : Protocol World) (body : Bytes) (world : World) :
    (∃ reply, (p.handle body world).2 = .ok reply) ↔
      match p.json.parse body with
      | .error what => utf8 what = true
      | .ok request => Follows (entryStep p) (SaysUtf8 p) world (entriesOf request) := by
  cases parsed : p.json.parse body with
  | error what =>
      simp only [handle, parsed]
      rw [p.json.dump_ok, valid_errorResponse, utf8_ascii_append (ascii_literal (by simp [isPlain]))]
      simp [Json.valid]
  | ok request => exact returns_of_parsed parsed world

end Protocol

/- A library for the runs below: it knows one body, and serialises whatever has no floating
point number in it. -/

def escape (byte : UInt8) : Bytes :=
  if byte = 34 then ascii "\\\""
  else if byte = 92 then ascii "\\\\"
  else if byte < 32 then
    ascii "\\u00" ++ ascii (String.ofList [Nat.digitChar (byte.toNat / 16),
      Nat.digitChar (byte.toNat % 16)])
  else [byte]

def quoted (text : Bytes) : Bytes := 34 :: (text.flatMap escape ++ [34])

mutual

def render : Json → Bytes
  | .null => ascii "null"
  | .bool value => if value then ascii "true" else ascii "false"
  | .integer value =>
      (if value < 0 then [45] else []) ++
        ascii (String.ofList (Nat.toDigits 10 value.natAbs))
  | .float _ => ascii "0.0"
  | .string text => quoted text
  | .array items => 91 :: (renderItems items ++ [93])
  | .object fields => 123 :: (renderFields fields ++ [125])

def renderItems : List Json → Bytes
  | [] => []
  | [item] => render item
  | item :: rest => render item ++ 44 :: renderItems rest

def renderFields : List (Bytes × Json) → Bytes
  | [] => []
  | [(name, value)] => quoted name ++ 58 :: render value
  | (name, value) :: rest => quoted name ++ 58 :: render value ++ 44 :: renderFields rest

end

theorem render_ne_nil (json : Json) : render json ≠ [] := by
  cases json with
  | integer value =>
      have digits := @Nat.toDigits_ne_nil value.natAbs 10
      simp [render, ascii, digits]
  | bool value => cases value <;> simp [render, ascii]
  | _ => simp [render, quoted, ascii]

/-- The library where one body means one value and any other is refused with one text. -/
def libraryOf (body : Bytes) (json : Json) (wellFormed : json.valid = true) (what : Bytes) :
    JsonLibrary where
  parse := fun text => if text = body then .ok json else .error what
  dump := fun value =>
    if value.valid then .ok (render value)
    else .error (ascii "[json.exception.type_error.316] invalid UTF-8 byte")
  dumpIndented := fun value =>
    .error (if value.valid then [] else
      ascii "[json.exception.type_error.316] invalid UTF-8 byte")
  parse_valid := by
    intro text value parses
    split at parses
    · cases parses
      exact wellFormed
    · contradiction
  dump_ok := by
    intro value
    by_cases fine : value.valid = true <;> simp [fine]
  dump_ne_nil := by
    intro value text dumps
    split at dumps
    · cases dumps
      exact render_ne_nil value
    · contradiction
  indented_utf8 := by
    intro value text dumps
    contradiction
  indented_error_utf8 := by
    intro value text fails
    cases fails
    split
    · rfl
    · exact utf8_literal (by simp [isPlain])

theorem libraryOf_parse (body : Bytes) (json : Json) (wellFormed : json.valid = true)
    (what : Bytes) : (libraryOf body json wellFormed what).parse body = .ok json := if_pos rfl

/-- No tools are needed to see the methods and the parser at work. -/
def toolless (json : JsonLibrary) : Protocol Unit where
  json := json
  tools := []
  version := ascii "1.0.0"
  tools_valid := by
    intro tool member
    exact absurd member List.not_mem_nil
  version_utf8 := utf8_literal (by simp [isPlain])

/-- A string that begins and goes on with a byte that is no UTF-8; the parser quotes it. -/
def brokenBody : Bytes := [34, 0xFF]

def parserText : Bytes :=
  ascii "[json.exception.parse_error.101] parse error at line 1, column 2: " ++
  ascii "syntax error while parsing value - invalid string: ill-formed UTF-8 byte; " ++
  ascii "last read: '\"" ++ ([0xFF] ++ ascii "'")

theorem brokenBody_escapes :
    ¬ ∃ reply, ((toolless (libraryOf [] .null rfl parserText)).handle brokenBody ()).2 =
      .ok reply := by
  have bad : utf8 parserText = false := by
    unfold parserText
    decide +kernel
  rintro ⟨reply, returns⟩
  have refused : (toolless (libraryOf [] .null rfl parserText)).json.parse brokenBody =
      .error parserText := rfl
  simp only [Protocol.handle, refused] at returns
  have valid := ((toolless (libraryOf [] .null rfl parserText)).json.dump_ok _).mp
    ⟨reply, returns⟩
  rw [valid_errorResponse, utf8_ascii_append (ascii_literal (by simp [isPlain])), bad] at valid
  simp at valid

end PointerLab.McpProtocol
