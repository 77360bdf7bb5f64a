import PointerLab.ByteText
import PointerLab.GrowingReads
import PointerLab.OrderedMap

set_option autoImplicit false

/- `mcp/McpHttp.cpp` and the read loop of `McpServer::handleConnection`: the request parser
runs again on everything received so far after every `recv`. -/
namespace PointerLab.McpHttp

open ByteText GrowingReads OrderedMap

/-- The order of `std::map<std::string, std::string>`. -/
def keyOrder : KeyOrder Bytes Bytes where
  fold := id
  before := fun left right => List.lex left right fun a b => decide (a < b)

structure HttpRequest where
  method : Bytes := []
  target : Bytes := []
  headers : List (Bytes × Bytes) := []
  body : Bytes := []
deriving DecidableEq

inductive HttpParse where
  | incomplete
  | malformed (status : Nat) (error : String)
  | complete (request : HttpRequest) (consumed : Nat)
deriving DecidableEq

/-- `std::tolower` in the C locale. -/
def lowerByte (byte : UInt8) : UInt8 := if 65 ≤ byte ∧ byte ≤ 90 then byte + 32 else byte

def lower (text : Bytes) : Bytes := text.map lowerByte

def isBlank (byte : UInt8) : Bool := byte == 32 || byte == 9

/-- Blanks and tabulators off both ends. -/
def trim (text : Bytes) : Bytes :=
  ((text.dropWhile isBlank).reverse.dropWhile isBlank).reverse

/-- `HttpRequest::header`; no header and an empty one look the same. -/
def HttpRequest.header (request : HttpRequest) (name : Bytes) : Bytes :=
  (find keyOrder (lower name) request.headers).getD []

/-- `std::isspace` in the C locale. -/
def isSpace (byte : UInt8) : Bool := byte == 32 || (9 ≤ byte && byte ≤ 13)

def isDigit (byte : UInt8) : Bool := 48 ≤ byte && byte ≤ 57

def magnitude (digits : Bytes) : Nat :=
  digits.foldl (fun value digit => value * 10 + (digit.toNat - 48)) 0

/-- `std::stoll` without its two exceptions: white space, a sign, digits, and whatever
follows them. -/
def stoll (text : Bytes) : Option Int :=
  let signed := text.dropWhile isSpace
  let negative := signed.head? == some 45
  let unsigned := if negative || signed.head? == some 43 then signed.tail else signed
  let digits := unsigned.takeWhile isDigit
  let value : Int := if negative then -(magnitude digits : Int) else magnitude digits
  if digits.isEmpty then none
  else if -9223372036854775808 ≤ value ∧ value ≤ 9223372036854775807 then some value
  else none

def terminator : Bytes := [13, 10, 13, 10]

/-- The pieces between the line ends; `current` is what the piece has so far. -/
def linesFrom : Bytes → Bytes → List Bytes
  | current, [] => [current]
  | current, 13 :: 10 :: rest => current :: linesFrom [] rest
  | current, byte :: rest => linesFrom (current ++ [byte]) rest

/-- The method and the target; whatever follows a second blank is not looked at. -/
def parseRequestLine (line : Bytes) : Except (Nat × String) HttpRequest :=
  match search [32] line with
  | none => .error (400, "The request line is malformed.")
  | some methodEnd =>
      let rest := line.drop (methodEnd + 1)
      .ok { method := line.take methodEnd, target := rest.takeWhile (· != 32) }

def parseHeaderLine (request : HttpRequest) (line : Bytes) :
    Except (Nat × String) HttpRequest :=
  if line.isEmpty then .ok request
  else
    match search [58] line with
    | none => .error (400, "A header line is malformed.")
    | some colon =>
        .ok { request with
          headers := assign keyOrder (lower (trim (line.take colon)))
            (trim (line.drop (colon + 1))) request.headers }

def parseLines : List Bytes → Except (Nat × String) HttpRequest
  | [] => .ok {}
  | first :: rest => do
      let request ← parseRequestLine first
      rest.foldlM parseHeaderLine request

def bodyLimit : Nat := 4 * 1024 * 1024

/-- The length of the body, from the headers. -/
def contentLength (request : HttpRequest) : Except (Nat × String) Nat :=
  let value := request.header (ascii "content-length")
  if value.isEmpty then .ok 0
  else
    match stoll value with
    | none => .error (400, "Content-Length is not a number.")
    | some parsed =>
        if parsed < 0 then .error (400, "Content-Length must not be negative.")
        else .ok parsed.toNat

/-- What stands before the terminator: the request without its body, and how long that is. -/
def parseHead (head : Bytes) : Except (Nat × String) (HttpRequest × Nat) := do
  let request ← parseLines (linesFrom [] head)
  let length ← contentLength request
  if bodyLimit < length then
    .error (413, "The request body is too large.")
  else if (search (ascii "chunked")
      (lower (request.header (ascii "transfer-encoding")))).isSome then
    .error (411, "Transfer-Encoding: chunked is not supported; send a Content-Length.")
  else .ok (request, length)

def headerLimit : Nat := 64 * 1024

def parseHttpRequest (buffer : Bytes) : HttpParse :=
  match search terminator buffer with
  | none =>
      if headerLimit < buffer.length then .malformed 431 "The request headers are too large."
      else .incomplete
  | some headerEnd =>
      match parseHead (buffer.take headerEnd) with
      | .error (status, error) => .malformed status error
      | .ok (request, length) =>
          let bodyStart := headerEnd + 4
          if buffer.length < bodyStart + length then .incomplete
          else
            .complete { request with body := (buffer.drop bodyStart).take length }
              (bodyStart + length)

/-- The loop goes on while the parse is incomplete. -/
def HttpParse.settled : HttpParse → Option HttpParse
  | .incomplete => none
  | .malformed status error => some (.malformed status error)
  | .complete request consumed => some (.complete request consumed)

def decided (buffer : Bytes) : Option HttpParse := (parseHttpRequest buffer).settled

/-- The read loop over the chunks `recv` gives; without a verdict the connection is closed. -/
def readRequest (chunks : List Bytes) : Option HttpParse := readLoop decided [] chunks

def chunkSize : Nat := 8192

/-- What the server goes by. -/
inductive Verdict where
  | complete (request : HttpRequest)
  | malformed (status : Nat)
deriving DecidableEq

def HttpParse.verdict : HttpParse → Option Verdict
  | .incomplete => none
  | .malformed status _ => some (.malformed status)
  | .complete request _ => some (.complete request)

end PointerLab.McpHttp
