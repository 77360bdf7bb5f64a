import Mathlib.Data.Vector.Defs
import PointerLab.Domain
import PointerLab.McpHttp
import PointerLab.McpProtocol
import PointerLab.Runs

set_option autoImplicit false

/- `mcp/McpServer.cpp` and the rest of `mcp/McpHttp.cpp`: the thread of the window starts and
stops the server, and a worker serves one connection after the other. -/
namespace PointerLab.McpServer

open ByteText McpHttp McpProtocol Runs

def statusText : Nat → Bytes
  | 200 => ascii "OK"
  | 202 => ascii "Accepted"
  | 400 => ascii "Bad Request"
  | 401 => ascii "Unauthorized"
  | 404 => ascii "Not Found"
  | 405 => ascii "Method Not Allowed"
  | 411 => ascii "Length Required"
  | 413 => ascii "Payload Too Large"
  | 431 => ascii "Request Header Fields Too Large"
  | 500 => ascii "Internal Server Error"
  | _ => ascii "OK"

/-- `std::to_string` -/
def digitsText (value : Nat) : Bytes := (Nat.toDigits 10 value).map fun c => UInt8.ofNat c.toNat

def lineEnd : Bytes := [13, 10]

def httpResponse (status : Nat) (body contentType : Bytes) : Bytes :=
  ascii "HTTP/1.1 " ++ digitsText status ++ ascii " " ++ statusText status ++ lineEnd ++
    (ascii "Content-Type: " ++ contentType ++ lineEnd) ++
    (ascii "Content-Length: " ++ digitsText body.length ++ lineEnd) ++
    (ascii "Access-Control-Allow-Origin: null" ++ lineEnd) ++
    (ascii "Connection: close" ++ lineEnd ++ lineEnd) ++ body

def json : Bytes := ascii "application/json"

/-- The bytes that differ are gathered over the whole length. -/
def difference : Bytes → Bytes → UInt8
  | a :: first, b :: second => (a ^^^ b) ||| difference first second
  | _, _ => 0

def bearerTokenMatches (authorization token : Bytes) : Bool :=
  if token.isEmpty then false
  else if authorization.length ≤ 7 || lower (authorization.take 7) != lower (ascii "Bearer ") then
    false
  else
    let presented := trim (authorization.drop 7)
    if presented.length ≠ token.length then false else difference presented token == 0

/-- The digits of the bytes that the system draws; nothing where it draws none. -/
def generateToken (drawn : Option (List.Vector UInt8 16)) : Bytes :=
  match drawn with
  | none => []
  | some bytes =>
      let digits := ascii "0123456789abcdef"
      bytes.toList.flatMap fun byte =>
        [digits.getD (byte.toNat / 16) 0, digits.getD (byte.toNat % 16) 0]

def maxLogLines : Nat := 500

/-- Where the worker is. -/
inductive Worker where
  /-- There is none, or it was joined. -/
  | none
  /-- Before `while (running_)`. -/
  | checking
  | accepting
  | reading (buffer : Bytes)
  /-- The token was right and the method is `POST`. -/
  | allowed (request : HttpRequest)
  /-- The lines that the tool calls of a request log, and its answer. -/
  | logging (lines : List Bytes) (answer : Except Bytes Bytes)
  | finished
  /-- An exception left the thread, which ends the program. -/
  | terminated
  deriving DecidableEq

/-- Where the thread of the window is, in `start` once the worker runs, or in `stop`. -/
inductive Window where
  | elsewhere
  | starting
  | stopping
  | closed
  | joined
  deriving DecidableEq

/-- `stop` is under way. -/
def Window.stops : Window → Bool
  | .elsewhere | .starting => false
  | .stopping | .closed | .joined => true

structure Server (World : Type) where
  world : World
  winsockReady : Bool := false
  running : Bool := false
  port : Nat := 0
  /-- Whether `listener_` is a socket. -/
  listener : Bool := false
  token : Bytes := []
  requests : Nat := 0
  log : List Bytes := []
  worker : Worker := .none
  window : Window := .elsewhere
  /-- What the clients were sent. -/
  replies : List Bytes := []
  /-- The token that the last `start` drew, until a `stop` has returned. -/
  session : Option Bytes := none
  /-- What was handed to the protocol, and in which session. -/
  handled : List (Option Bytes × HttpRequest) := []

namespace Server

variable {World : Type}

def append (server : Server World) (line : Bytes) : Server World :=
  { server with
    log := (if maxLogLines ≤ server.log.length
      then server.log.drop (server.log.length - maxLogLines + 1) else server.log) ++ [line] }

/-- `takeLog`: the lines, and the server without them. -/
def takeLog (server : Server World) : Server World × List Bytes :=
  ({ server with log := [] }, server.log)

/-- What the system answers during `start`. -/
structure Weather where
  wsaStartup : Nat := 0
  drawn : Option (List.Vector UInt8 16) := none
  socket : Except Nat Unit := .ok ()
  bind : Except Nat Unit := .ok ()
  listen : Except Nat Unit := .ok ()
  /-- The port of `getsockname`. -/
  bound : Option Nat := none

def addressInUse : Nat := 10048

/-- `url` -/
def url (port : Nat) : Bytes := ascii "http://127.0.0.1:" ++ digitsText port

/-- `start`, up to the line that it logs at its end. -/
def start (describe : Nat → String) (weather : Weather) (port : Nat) (server : Server World) :
    Server World × Result Unit :=
  if server.running then (server, fail "The MCP server is already running.")
  else if !server.winsockReady && weather.wsaStartup ≠ 0 then
    (server, fail "Windows Sockets could not be started." weather.wsaStartup)
  else
    let server := { server with winsockReady := true }
    let newToken := generateToken weather.drawn
    if newToken.isEmpty then
      (server, fail "A session token could not be generated, so the server was not started.")
    else
      match weather.socket, weather.bind, weather.listen with
      | .error error, _, _ => (server, fail "A listening socket could not be created." error)
      | _, .error error, _ =>
          if error = addressInUse then
            (server, fail ("Port " ++ toString port ++
              " is already in use. Choose another, or use 0 to let Windows pick.") error)
          else
            (server, fail ("Port " ++ toString port ++ " could not be bound: " ++
              describe error) error)
      | _, _, .error error => (server, fail "The socket could not be listened on." error)
      | .ok (), .ok (), .ok () =>
          let port := weather.bound.getD port
          ({ server with
              port, token := newToken, listener := true, running := true, worker := .checking
              session := some newToken, window := .starting }, .ok ())

def rejected : Bytes := ascii "Rejected a request with no valid token."

variable (p : Protocol World)

def reply (server : Server World) (text : Bytes) : Server World :=
  { server with replies := server.replies ++ [text], worker := .checking }

/-- A reply with an error in it, which has to be serialised. -/
def refuse (server : Server World) (status : Nat) (error : Bytes) : Server World :=
  match p.json.dump (.object [(ascii "error", .string error)]) with
  | .ok text => server.reply (httpResponse status text json)
  | .error _ => { server with worker := .terminated }

/-- The text of a method that is not served. -/
def methodError (method : Bytes) : Bytes :=
  if method = ascii "OPTIONS" then ascii "This server does not accept cross-origin requests."
  else if method = ascii "GET" then
    ascii "This server does not offer an event stream. Use POST."
  else ascii "Only POST is supported."

/-- `handleConnection` once the request is there, up to `protocol_.handle`. -/
def authorise (server : Server World) : HttpParse → Server World
  | .incomplete => server
  | .malformed status error => refuse p server status (ascii error)
  | .complete request _ =>
      if !bearerTokenMatches (request.header (ascii "authorization")) server.token then
        refuse p (server.append rejected) 401 (ascii "A valid bearer token is required.")
      else if request.method ≠ ascii "POST" then
        refuse p server 405 (methodError request.method)
      else { server with worker := .allowed request }

/-- `protocol_.handle` in `handleConnection`. What its tool calls log comes after each other. -/
def handle (server : Server World) (request : HttpRequest) : Server World :=
  let (world, answer) := p.handle request.body server.world
  { server with
    world
    requests := bump server.requests
    handled := server.handled ++ [(server.session, request)]
    worker := .logging (p.logLines request.body server.world) answer }

/-- `handleConnection` behind `protocol_.handle`. -/
def answered (server : Server World) (answer : Except Bytes Bytes) : Server World :=
  match answer with
  | .error _ => { server with worker := .terminated }
  | .ok [] => server.reply (httpResponse 202 [] (ascii "text/plain"))
  | .ok response => server.reply (httpResponse 200 response json)

/-- The next thing that happens. -/
inductive Event (World : Type) where
  /-- The window starts the server, or asks for what was logged, or begins to stop it. -/
  | start (weather : Weather) (port : Nat)
  | takeLog
  | stop
  /-- The next thing that `start` or `stop` does. -/
  | onward
  /-- The worker goes on. A client is there, or the listener is broken. -/
  | check
  | accept (client : Bool)
  /-- What `recv` brings if more is needed; nothing where the client is gone. -/
  | receive (chunk : Bytes)
  /-- What others do to the world meanwhile. -/
  | meanwhile (world : World)

/-- The end of `start`, and `stop` a step at a time. It waits for the worker before it joins it. -/
def onward (server : Server World) : Server World :=
  match server.window with
  | .elsewhere => server
  | .starting =>
      { server.append (ascii "Listening on " ++ url server.port ++ ascii ".") with
        window := .elsewhere }
  | .stopping => { server with listener := false, window := .closed }
  | .closed =>
      match server.worker with
      | .none | .finished => { server with worker := .none, window := .joined }
      | _ => server
  | .joined =>
      { server with token := [], winsockReady := false, session := none, window := .elsewhere }

def step (describe : Nat → String) (server : Server World) : Event World → Server World
  | .start weather port =>
      if server.window = .elsewhere then (server.start describe weather port).1 else server
  | .takeLog => if server.window = .elsewhere then server.takeLog.1 else server
  | .stop =>
      if server.window = .elsewhere && (server.running || server.listener) then
        { server with running := false, window := .stopping }
      else server
  | .onward => server.onward
  | .check =>
      match server.worker with
      | .checking => { server with worker := if server.running then .accepting else .finished }
      | .allowed request => handle p server request
      | .logging (line :: rest) answer =>
          { server.append line with worker := .logging rest answer }
      | .logging [] answer => server.answered answer
      | _ => server
  | .accept client =>
      match server.worker with
      | .accepting =>
          { server with worker := if client && server.listener then .reading [] else .finished }
      | _ => server
  | .receive chunk =>
      match server.worker with
      | .reading buffer =>
          match parseHttpRequest buffer with
          | .incomplete =>
              { server with
                worker := if chunk.isEmpty then .checking else .reading (buffer ++ chunk) }
          | parse => authorise p server parse
      | _ => server
  | .meanwhile world => { server with world }

end Server

/-- The bytes are compared to the end, and the result is whether they are the same. -/
theorem difference_eq_zero_iff {first second : Bytes} (length : first.length = second.length) :
    difference first second = 0 ↔ first = second := by
  induction first generalizing second with
  | nil =>
      rw [List.length_eq_zero_iff.mp length.symm]
      exact iff_of_true rfl rfl
  | cons a first ih =>
      cases second with
      | nil => exact absurd length (Nat.succ_ne_zero _)
      | cons b second =>
          rw [difference, UInt8.or_eq_zero_iff, UInt8.xor_eq_zero_iff,
            ih (Nat.succ.inj length), List.cons.injEq]

/-- The header has the scheme, in letters of either case, and the token behind it. -/
def Presents (authorization token : Bytes) : Prop :=
  ∃ scheme rest, authorization = scheme ++ rest ∧ lower scheme = ascii "bearer " ∧
    trim rest = token

theorem bearerTokenMatches_iff (authorization token : Bytes) :
    bearerTokenMatches authorization token = true ↔ token ≠ [] ∧ Presents authorization token := by
  have scheme : lower (ascii "Bearer ") = ascii "bearer " := by decide
  unfold bearerTokenMatches
  rw [scheme]
  constructor
  · intro found
    split at found
    · contradiction
    · rename_i nonempty
      split at found
      · contradiction
      · rename_i starts
        dsimp only at found
        split at found
        · contradiction
        · rename_i same
          simp only [Bool.or_eq_true, decide_eq_true_eq, bne_iff_ne, not_or, Decidable.not_not,
            List.isEmpty_iff] at starts nonempty same
          refine ⟨nonempty, authorization.take 7, authorization.drop 7, ?_, starts.2, ?_⟩
          · rw [List.take_append_drop]
          · exact (difference_eq_zero_iff same).mp (beq_iff_eq.mp found)
  · rintro ⟨nonempty, first, rest, rfl, named, presented⟩
    have length : first.length = 7 := by
      have whole := congrArg List.length named
      rwa [lower, List.length_map] at whole
    have more : rest ≠ [] := by
      rintro rfl
      exact nonempty presented.symm
    rw [List.take_left' length, List.drop_left' length, if_neg (by simpa using nonempty),
      if_neg (by simpa [named, length, List.length_pos_iff] using more), presented]
    simp [difference_eq_zero_iff]

section Session

variable {World : Type}

/-- In this session the request may be handed to the protocol. -/
def Authorised (session : Option Bytes) (request : HttpRequest) : Prop :=
  request.method = ascii "POST" ∧ ∃ token, session = some token ∧ token ≠ [] ∧
    Presents (request.header (ascii "authorization")) token

/-- What holds of the server between any two steps. -/
structure Sound (server : Server World) : Prop where
  /-- The token that is compared is the one of the session, and a worker lives in a session. -/
  token : server.token = server.session.getD []
  worker : server.session = none → server.worker = .none ∧ server.listener = false
  running : server.running = true → server.session ≠ none
  starting : server.window = .starting → server.running = true
  stopping : server.window.stops = true → server.running = false ∧ server.session ≠ none
  joined : server.window = .joined → server.worker = .none ∧ server.listener = false
  closed : server.window = .closed → server.listener = false
  elsewhere : server.window = .elsewhere → server.running = false → server.session = none
  waiting : ∀ request, server.worker = .allowed request → Authorised server.session request
  handled : ∀ entry ∈ server.handled, Authorised entry.1 entry.2
  counted : server.requests = server.handled.length % addressSpace
  bounded : server.log.length ≤ maxLogLines

theorem sound_initial (world : World) : Sound { world : Server World } where
  token := rfl
  worker := fun _ => ⟨rfl, rfl⟩
  running := fun on => absurd on Bool.false_ne_true
  starting := nofun
  stopping := fun busy => absurd busy Bool.false_ne_true
  joined := nofun
  closed := nofun
  elsewhere := fun _ _ => rfl
  waiting := nofun
  handled := fun _ inside => absurd inside List.not_mem_nil
  counted := rfl
  bounded := Nat.zero_le _

/-- The log never has more lines than its bound. -/
theorem length_append_le (server : Server World) (line : Bytes)
    (bounded : server.log.length ≤ maxLogLines) :
    (server.append line).log.length ≤ maxLogLines := by
  have positive : 1 ≤ maxLogLines := by decide
  rw [Server.append, List.length_append, List.length_singleton]
  split
  · rw [List.length_drop]
    omega
  · omega

theorem sound_append {server : Server World} (sound : Sound server) (line : Bytes) :
    Sound (server.append line) :=
  { sound with bounded := length_append_le server line sound.bounded }

/-- Where the worker goes on without a request in its hands. -/
theorem sound_worker {server : Server World} (sound : Sound server) {worker : Worker}
    (busy : server.worker ≠ .none) (free : ∀ request, worker ≠ .allowed request)
    (replies : List Bytes) : Sound { server with worker, replies } where
  token := sound.token
  worker := fun over_ => absurd (sound.worker over_).1 busy
  running := sound.running
  starting := sound.starting
  stopping := sound.stopping
  joined := fun ended => absurd (sound.joined ended).1 busy
  closed := sound.closed
  elsewhere := sound.elsewhere
  waiting := fun request same => absurd same (free request)
  handled := sound.handled
  counted := sound.counted
  bounded := sound.bounded

theorem sound_winsock {server : Server World} (sound : Sound server) (winsockReady : Bool) :
    Sound { server with winsockReady } := { sound with }

/-- A start that succeeds finds no worker and no session. -/
theorem sound_start {server : Server World} (sound : Sound server)
    (free : server.window = .elsewhere) (describe : Nat → String) (weather : Server.Weather)
    (port : Nat) : Sound (server.start describe weather port).1 := by
  have ready := sound_winsock sound true
  unfold Server.start
  split
  · exact sound
  · rename_i off
    have none_ := sound.elsewhere free (Bool.eq_false_iff.mpr off)
    split
    · exact sound
    · dsimp only
      split
      · exact ready
      · split
        · exact ready
        · split <;> exact ready
        · exact ready
        · exact
            { sound with
              token := rfl
              worker := fun gone => absurd gone (Option.some_ne_none _)
              running := fun _ => Option.some_ne_none _
              starting := fun _ => rfl
              stopping := fun busy => absurd busy Bool.false_ne_true
              joined := nofun
              closed := nofun
              elsewhere := fun _ stopped => Bool.noConfusion stopped
              waiting := nofun }

variable (p : Protocol World)

theorem sound_refuse {server : Server World} (sound : Sound server)
    (busy : server.worker ≠ .none) (status : Nat) (error : Bytes) :
    Sound (Server.refuse p server status error) := by
  unfold Server.refuse
  split
  · exact sound_worker sound busy (by exact fun _ => nofun) _
  · exact sound_worker sound busy (by exact fun _ => nofun) _

/-- Only a request that is authorised is kept. -/
theorem sound_authorise {server : Server World} (sound : Sound server)
    (busy : server.worker ≠ .none) (parse : HttpParse) :
    Sound (Server.authorise p server parse) := by
  cases parse with
  | incomplete => exact sound
  | malformed status error => exact sound_refuse p sound busy status _
  | complete request consumed =>
      rw [Server.authorise]
      split
      · exact sound_refuse p (sound_append sound _) busy _ _
      · rename_i bearer
        split
        · exact sound_refuse p sound busy _ _
        · rename_i post
          simp only [Bool.not_eq_true', Bool.not_eq_false] at bearer
          obtain ⟨nonempty, presents⟩ := (bearerTokenMatches_iff _ _).mp bearer
          have session : server.session = some server.token := by
            cases none_ : server.session with
            | none => exact absurd (sound.token.trans (by rw [none_]; rfl)) nonempty
            | some token => rw [sound.token, none_, Option.getD_some]
          have authorised : Authorised server.session request :=
            ⟨Decidable.not_not.mp post, server.token, session, nonempty, presents⟩
          exact
            { sound with
              worker := fun over_ => absurd (sound.worker over_).1 busy
              joined := fun ended => absurd (sound.joined ended).1 busy
              waiting := fun other same => Worker.allowed.inj same ▸ authorised }

theorem bump_length {Item : Type} (items : List Item) (item : Item) :
    bump (items.length % addressSpace) = (items ++ [item]).length % addressSpace := by
  rw [bump, Nat.mod_add_mod, List.length_append, List.length_singleton]

theorem sound_handle {server : Server World} (sound : Sound server) {request : HttpRequest}
    (waits : server.worker = .allowed request) : Sound (Server.handle p server request) := by
  have busy : server.worker ≠ .none := waits ▸ nofun
  have taken : Sound { server with
      world := (p.handle request.body server.world).1
      requests := bump server.requests
      handled := server.handled ++ [(server.session, request)] } :=
    { sound with
      handled := List.forall_mem_append.mpr
        ⟨sound.handled, List.forall_mem_singleton.mpr (sound.waiting request waits)⟩
      counted := by rw [sound.counted, bump_length] }
  exact sound_worker taken busy (by exact fun _ => nofun) server.replies

theorem sound_answered {server : Server World} (sound : Sound server)
    (busy : server.worker ≠ .none) (answer : Except Bytes Bytes) :
    Sound (server.answered answer) := by
  unfold Server.answered
  split
  · exact sound_worker sound busy (by exact fun _ => nofun) _
  · exact sound_worker sound busy (by exact fun _ => nofun) _
  · exact sound_worker sound busy (by exact fun _ => nofun) _

theorem sound_onward {server : Server World} (sound : Sound server) : Sound server.onward := by
  unfold Server.onward
  split
  · exact sound
  · rename_i starting
    have on := sound.starting starting
    have logged := sound_append sound (ascii "Listening on " ++ Server.url server.port ++ ascii ".")
    exact
      { logged with
        starting := nofun
        stopping := fun busy => absurd busy Bool.false_ne_true
        joined := nofun
        closed := nofun
        elsewhere := fun _ off => absurd (on.symm.trans off) (by decide) }
  · rename_i stopping
    have off := sound.stopping (by rw [stopping]; rfl)
    exact
      { sound with
        worker := fun over_ => absurd over_ off.2
        starting := nofun
        stopping := fun _ => off
        joined := nofun
        closed := fun _ => rfl
        elsewhere := nofun }
  · rename_i closed
    have off := sound.stopping (by rw [closed]; rfl)
    split
    all_goals first
      | exact sound
      | exact
          { sound with
            worker := fun over_ => absurd over_ off.2
            starting := nofun
            stopping := fun _ => off
            joined := fun _ => ⟨rfl, sound.closed closed⟩
            closed := nofun
            elsewhere := nofun
            waiting := nofun }
  · rename_i joined
    have off := sound.stopping (by rw [joined]; rfl)
    have ended := sound.joined joined
    exact
      { sound with
        token := rfl
        worker := fun _ => ended
        running := fun on => absurd (off.1.symm.trans on) Bool.false_ne_true
        starting := nofun
        stopping := fun busy => absurd busy Bool.false_ne_true
        joined := nofun
        closed := nofun
        elsewhere := fun _ _ => rfl
        waiting := fun request waits => absurd (ended.1.symm.trans waits) nofun }

theorem sound_step (describe : Nat → String) {server : Server World} (sound : Sound server)
    (event : Server.Event World) : Sound (Server.step p describe server event) := by
  cases event with
  | start weather port =>
      rw [Server.step]
      split
      · rename_i free
        exact sound_start sound free describe weather port
      · exact sound
  | takeLog =>
      rw [Server.step]
      split
      · exact { sound with bounded := Nat.zero_le _ }
      · exact sound
  | stop =>
      rw [Server.step]
      split
      · rename_i possible
        simp only [Bool.and_eq_true, Bool.or_eq_true, decide_eq_true_eq] at possible
        obtain ⟨free, on⟩ := possible
        have live : server.session ≠ none := by
          intro none_
          rcases on with running | listener
          · exact sound.running running none_
          · exact absurd ((sound.worker none_).2.symm.trans listener) Bool.false_ne_true
        exact
          { sound with
            running := fun on => absurd on Bool.false_ne_true
            starting := nofun
            stopping := fun _ => ⟨rfl, live⟩
            joined := nofun
            closed := nofun
            elsewhere := nofun }
      · exact sound
  | onward => exact sound_onward sound
  | check =>
      rw [Server.step]
      split
      · rename_i checking
        refine sound_worker sound (checking ▸ nofun) ?_ _
        intro request
        split <;> exact nofun
      · rename_i request waits
        exact sound_handle p sound waits
      · rename_i line rest answer logging
        have busy : (server.append line).worker ≠ .none := by
          show server.worker ≠ .none
          exact logging ▸ nofun
        exact sound_worker (sound_append sound line) busy (by exact fun _ => nofun) server.replies
      · rename_i answer logging
        exact sound_answered sound (logging ▸ nofun) answer
      · exact sound
  | accept client =>
      rw [Server.step]
      split
      · rename_i accepting
        refine sound_worker sound (accepting ▸ nofun) ?_ _
        intro request
        split <;> exact nofun
      · exact sound
  | receive chunk =>
      rw [Server.step]
      split
      · rename_i buffer reading
        have busy : server.worker ≠ .none := reading ▸ nofun
        split
        · refine sound_worker sound busy ?_ _
          intro request
          split <;> exact nofun
        · exact sound_authorise p sound busy _
      · exact sound
  | meanwhile world => exact { sound with }

/-- However the window, the clients and the worker come after each other: what is handed to the
protocol is a `POST` that presents the token of the session it is handled in, nothing is left of
a session that has been stopped, and the log stays within its bound. -/
theorem handled_authorised (describe : Nat → String) (world : World)
    (events : List (Server.Event World)) :
    let server := run (Server.step p describe) { world } events
    (∀ entry ∈ server.handled, Authorised entry.1 entry.2) ∧
      server.requests = server.handled.length % addressSpace ∧
      server.log.length ≤ maxLogLines ∧
      (server.window = .elsewhere → server.running = false →
        server.worker = .none ∧ server.listener = false ∧ server.token = []) := by
  have sound : Sound (run (Server.step p describe) { world } events) :=
    (follows_true _ _ events).reached.invariant (sound_initial world)
      fun _ event before _ => sound_step p describe before event
  refine ⟨sound.handled, sound.counted, sound.bounded, fun free off => ?_⟩
  have none_ := sound.elsewhere free off
  obtain ⟨worker, listener⟩ := sound.worker none_
  exact ⟨worker, listener, sound.token.trans (by rw [none_]; rfl)⟩

end Session

end PointerLab.McpServer
