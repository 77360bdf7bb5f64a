import PointerLab.ByteText

set_option autoImplicit false

/- `mcp/McpProtocol.cpp`: JSON-RPC over one request body, and the methods above it. What
`nlohmann::json` parses and serialises is a parameter; the tools act on a world of their
own. -/
namespace PointerLab.McpProtocol

open ByteText

inductive Json where
  | null
  | bool (value : Bool)
  | integer (value : Int)
  | float (bits : UInt64)
  | string (text : Bytes)
  | array (items : List Json)
  | object (fields : List (Bytes × Json))

namespace Json

def isNull : Json → Bool
  | .null => true
  | _ => false

/-- `contains` and `at`: the field of that name. -/
def field (name : Bytes) : List (Bytes × Json) → Option Json
  | [] => none
  | entry :: rest => if entry.1 = name then some entry.2 else field name rest

mutual

/-- Every string in the value, and every name of a field, is UTF-8. -/
def valid : Json → Bool
  | .null => true
  | .bool _ => true
  | .integer _ => true
  | .float _ => true
  | .string text => utf8 text
  | .array items => validItems items
  | .object fields => validFields fields

def validItems : List Json → Bool
  | [] => true
  | item :: rest => valid item && validItems rest

def validFields : List (Bytes × Json) → Bool
  | [] => true
  | (name, value) :: rest => utf8 name && valid value && validFields rest

end

end Json

/-- What the protocol relies on of `nlohmann::json`: `parse` takes only UTF-8, and the two
ways of calling `dump` throw exactly at strings that are not. An exception is its text. -/
structure JsonLibrary where
  parse : Bytes → Except Bytes Json
  dump : Json → Except Bytes Bytes
  dumpIndented : Json → Except Bytes Bytes
  parse_valid : ∀ {body json}, parse body = .ok json → json.valid = true
  dump_ok : ∀ json, (∃ text, dump json = .ok text) ↔ json.valid = true
  dump_ne_nil : ∀ {json text}, dump json = .ok text → text ≠ []
  indented_utf8 : ∀ {json text}, dumpIndented json = .ok text → utf8 text = true
  indented_error_utf8 : ∀ {json text}, dumpIndented json = .error text → utf8 text = true

/-- What a tool comes to: a result, a failure with its code, or an exception. -/
inductive Outcome where
  | ok (value : Json)
  | failed (error : Bytes) (code : Nat)
  | threw (what : Bytes)

/-- What a call that did not succeed has to say. -/
def Outcome.text : Outcome → Bytes
  | .ok _ => []
  | .failed error _ => error
  | .threw what => what

structure Tool (World : Type) where
  name : Bytes
  description : Bytes
  inputSchema : Json
  /-- Its handler, on whichever thread it runs. -/
  handler : Json → World → World × Outcome

def Tool.listed {World : Type} (tool : Tool World) : Json :=
  .object [(ascii "name", .string tool.name), (ascii "description", .string tool.description),
    (ascii "inputSchema", tool.inputSchema)]

structure Protocol (World : Type) where
  json : JsonLibrary
  tools : List (Tool World)
  /-- `POINTERLAB_VERSION_STRING`. -/
  version : Bytes
  tools_valid : ∀ tool ∈ tools, tool.listed.valid = true
  version_utf8 : utf8 version = true

def parseError : Int := -32700
def invalidRequest : Int := -32600
def methodNotFound : Int := -32601
def internalError : Int := -32603

def errorResponse (id : Json) (code : Int) (message : Bytes) : Json :=
  .object [(ascii "jsonrpc", .string (ascii "2.0")), (ascii "id", id),
    (ascii "error",
      .object [(ascii "code", .integer code), (ascii "message", .string message)])]

def okResponse (id : Json) (result : Json) : Json :=
  .object [(ascii "jsonrpc", .string (ascii "2.0")), (ascii "id", id), (ascii "result", result)]

def protocolVersion : Bytes := ascii "2025-06-18"

def instructions : Bytes :=
  ascii "Drives a live Pointer Lab session: the same attached process, " ++
  ascii "scan and address list the person at the window is looking at. " ++
  ascii "Attach to a process first; everything else needs it. Scans run " ++
  ascii "in the background, so poll scan_status before scan_results. " ++
  ascii "Writes, patches and injection take effect immediately in a live " ++
  ascii "process and are not undone when you disconnect."

/-- The content of a tool's answer. -/
def content (text : Bytes) (isError : Bool) : Json :=
  .object [(ascii "content", .array [.object [(ascii "type", .string (ascii "text")),
    (ascii "text", .string text)]]), (ascii "isError", .bool isError)]

namespace Protocol

variable {World : Type} (p : Protocol World)

/-- `ToolRegistry::call`. -/
def call (name : Bytes) (arguments : Json) (world : World) : World × Outcome :=
  match p.tools.find? fun tool => tool.name = name with
  | none =>
      (world, .failed (ascii "There is no tool called \"" ++ name ++ ascii "\".") 0)
  | some tool =>
      let args := match arguments with
        | .object fields => .object fields
        | _ => .object []
      tool.handler args world

/-- The message of a failed call. -/
def failure (error : Bytes) (code : Nat) : Bytes :=
  if code ≠ 0 then
    error ++ (ascii " (Windows error " ++ ascii (String.ofList (Nat.toDigits 10 code)) ++
      ascii ")")
  else error

/-- The tool and the arguments that the parameters name. -/
def toolAndArguments : Json → Option (Bytes × Json)
  | .object fields =>
      match Json.field (ascii "name") fields with
      | some (.string name) =>
          some (name, (Json.field (ascii "arguments") fields).getD (.object []))
      | _ => none
  | _ => none

/-- `callTool`; its exception is the one of `dump(2)`. -/
def callTool (params : Json) (world : World) : World × Except Bytes Json :=
  match toolAndArguments params with
  | none => (world, .ok (content (ascii "tools/call needs a tool name.") true))
  | some (name, arguments) =>
      match p.call name arguments world with
      | (world, .threw what) => (world, .ok (content (ascii "The tool threw: " ++ what) true))
      | (world, .failed error code) => (world, .ok (content (failure error code) true))
      | (world, .ok value) =>
          (world, (p.json.dumpIndented value).map fun text => content text false)

/-- A version the client asks for is echoed. -/
def agreedVersion : Json → Bytes
  | .object fields =>
      match Json.field (ascii "protocolVersion") fields with
      | some (.string version) => version
      | _ => protocolVersion
  | _ => protocolVersion

def initializeResult (params : Json) : Json :=
  .object [(ascii "protocolVersion", .string (agreedVersion params)),
    (ascii "capabilities",
      .object [(ascii "tools", .object [(ascii "listChanged", .bool false)])]),
    (ascii "serverInfo",
      .object [(ascii "name", .string (ascii "pointerlab")),
        (ascii "title", .string (ascii "Pointer Lab")), (ascii "version", .string p.version)]),
    (ascii "instructions", .string instructions)]

def idOf (fields : List (Bytes × Json)) : Json := (Json.field (ascii "id") fields).getD .null

def paramsOf (fields : List (Bytes × Json)) : Json :=
  (Json.field (ascii "params") fields).getD (.object [])

/-- A null response is none at all. -/
def unlessNotification (notification : Bool) (response : Json) : Json :=
  if notification then .null else response

/-- The methods, with the exception they may end in. -/
def perform (id : Json) (notification : Bool) (method : Bytes) (params : Json) (world : World) :
    World × Except Bytes Json :=
  if method = ascii "initialize" then
    (world, .ok (okResponse id (p.initializeResult params)))
  else if method = ascii "notifications/initialized" ∨
      method = ascii "notifications/cancelled" then
    (world, .ok .null)
  else if method = ascii "ping" then
    (world, .ok (unlessNotification notification (okResponse id (.object []))))
  else if method = ascii "tools/list" then
    (world, .ok (okResponse id (.object [(ascii "tools", .array (p.tools.map Tool.listed))])))
  else if method = ascii "tools/call" then
    let called := p.callTool params world
    (called.1, called.2.map fun result => unlessNotification notification (okResponse id result))
  else if method = ascii "resources/list" then
    (world, .ok (okResponse id (.object [(ascii "resources", .array [])])))
  else if method = ascii "prompts/list" then
    (world, .ok (okResponse id (.object [(ascii "prompts", .array [])])))
  else
    (world, .ok (unlessNotification notification (errorResponse id methodNotFound
      (ascii "There is no method called \"" ++ method ++ ascii "\"."))))

/-- The `catch` of `dispatch`. -/
def caught (id : Json) (notification : Bool) : Except Bytes Json → Json
  | .ok response => response
  | .error what => unlessNotification notification (errorResponse id internalError what)

def dispatch (request : Json) (world : World) : World × Json :=
  match request with
  | .object fields =>
      let id := idOf fields
      let notification := id.isNull
      match Json.field (ascii "method") fields with
      | some (.string method) =>
          let performed := p.perform id notification method (paramsOf fields) world
          (performed.1, caught id notification performed.2)
      | _ =>
          (world, unlessNotification notification
            (errorResponse id invalidRequest (ascii "method is required.")))
  | _ =>
      (world, errorResponse .null invalidRequest (ascii "A request must be a JSON object."))

/-- The entries of a batch in order, without the null responses. -/
def dispatchEach : List Json → World → World × List Json
  | [], world => (world, [])
  | entry :: rest, world =>
      let answered := p.dispatch entry world
      let later := dispatchEach rest answered.1
      (later.1, if answered.2.isNull then later.2 else answered.2 :: later.2)

/-- What `handle` serialises for a request it could parse; nothing for the empty reply. -/
def respond (request : Json) (world : World) : World × Option Json :=
  match request with
  | .array [] =>
      (world, some (errorResponse .null invalidRequest (ascii "A batch must not be empty.")))
  | .array entries =>
      let answered := p.dispatchEach entries world
      (answered.1, if answered.2.isEmpty then none else some (.array answered.2))
  | request =>
      let answered := p.dispatch request world
      (answered.1, if answered.2.isNull then none else some answered.2)

/-- `Protocol::handle`: the reply, or the exception that leaves it. -/
def handle (body : Bytes) (world : World) : World × Except Bytes Bytes :=
  match p.json.parse body with
  | .error what =>
      (world, p.json.dump (errorResponse .null parseError (ascii "Invalid JSON: " ++ what)))
  | .ok request =>
      let answered := p.respond request world
      match answered.2 with
      | none => (answered.1, .ok [])
      | some response => (answered.1, p.json.dump response)

/-- The line of a tool call in the log. -/
def logLine (name : Bytes) : Outcome → Bytes
  | .ok _ => name ++ ascii " ok"
  | .failed error _ => name ++ ascii " failed: " ++ error
  | .threw what => name ++ ascii " failed: " ++ (ascii "The tool threw: " ++ what)

/-- What `callTool` gives to the logger. -/
def callLines (params : Json) (world : World) : List Bytes :=
  match toolAndArguments params with
  | none => []
  | some (name, arguments) => [logLine name (p.call name arguments world).2]

/-- What `dispatch` logs, which is in its tool call. -/
def dispatchLines (request : Json) (world : World) : List Bytes :=
  match request with
  | .object fields =>
      match Json.field (ascii "method") fields with
      | some (.string method) =>
          if method = ascii "tools/call" then p.callLines (paramsOf fields) world else []
      | _ => []
  | _ => []

def dispatchEachLines : List Json → World → List Bytes
  | [], _ => []
  | entry :: rest, world =>
      p.dispatchLines entry world ++ dispatchEachLines rest (p.dispatch entry world).1

/-- What `handle` logs for a request, in order. -/
def logLines (body : Bytes) (world : World) : List Bytes :=
  match p.json.parse body with
  | .error _ => []
  | .ok (.array entries) => p.dispatchEachLines entries world
  | .ok request => p.dispatchLines request world

end Protocol

end PointerLab.McpProtocol
