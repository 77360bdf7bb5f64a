import Mathlib.Logic.Function.Basic
import PointerLab.PatchRegistry
import PointerLab.SpeedController

set_option autoImplicit false

/- Attaching and detaching from every front end: the target panel and its confirmation
dialogs (`ui/UiPanelsTarget.cpp`, `ui/UiApp.cpp`), the MCP tools (`mcp/McpTools.cpp`) and
the Lua functions (`scripting/LuaConsole.cpp`), mixed with patch and speed calls. -/
namespace PointerLab.AttachFlow

open TargetSession

/-- One run of a program. Its pid may have belonged to an earlier one. -/
structure Process where
  pid : Nat
  birth : Nat
  deriving DecidableEq, Repr

/-- A write through the registry or the controller: where it goes, and the process
that what is written was learned from. -/
structure Write where
  into : Process
  learnedFrom : Option Process
  deriving DecidableEq, Repr

/-- What a confirmation dialog does when it is confirmed. -/
inductive Confirmation
  /-- The detach action of `requestDetach`, with the scripts it counted as live. -/
  | detach (liveScripts : Nat)
  /-- "Detach and attach". -/
  | attach (pid : Nat)
  | other
  deriving DecidableEq, Repr

structure App where
  session : Option Process := none
  registry : PatchRegistry.Registry := {}
  speed : SpeedController.Controller := {}
  pending : Option Confirmation := none
  memory : Process → Nat → UInt8
  /-- The process each record's original bytes were read from. -/
  origins : Nat → Option Process := fun _ => none
  /-- The process the control block was located in. -/
  located : Option Process := none
  written : List Write := []

/-- What the other engines have live when a detach is requested. -/
structure Live where
  breakpoints : Nat := 0
  scripts : Nat := 0

/-- What a detach does before it lets go: the patch calls that switching the scripts off
makes, and how the two writes of the speed reset end. -/
structure Undo where
  scripts : List PatchRegistry.Operation := []
  first : Access := {}
  second : Access := {}

/-- The patch a `setEnabled` would write. -/
def toggledBy (id : Nat) (enabled : Bool) (r : PatchRegistry.Registry) : List Nat :=
  match PatchRegistry.lookupToggle id enabled r with
  | .write _ _ => [id]
  | _ => []

/-- The patches a loop of `restoreAll` writes. -/
def toggledEach (access : Nat → Access) : List Nat → PatchRegistry.Patched → List Nat
  | [], _ => []
  | id :: rest, s =>
      toggledBy id false s.registry ++
        toggledEach access rest (PatchRegistry.setEnabled (access id) id false s).1

def toggled (s : PatchRegistry.Patched) : PatchRegistry.Operation → List Nat
  | .apply .. => []
  | .setEnabled id enabled _ => toggledBy id enabled s.registry
  | .remove id _ => toggledBy id false s.registry
  | .restoreAll access => toggledEach access (PatchRegistry.enabledIds s.registry) s

/-- Where the originals come from that a call records. -/
def originsAfter (process : Process) (r : PatchRegistry.Registry) (origins : Nat → Option Process) :
    PatchRegistry.Operation → Nat → Option Process
  | .apply .. => Function.update origins r.nextId (some process)
  | _ => origins

/-- A patch call from any front end. -/
def patchCall (s : App) (operation : PatchRegistry.Operation) : App :=
  match s.session with
  | none =>
      let patched := PatchRegistry.step ⟨s.registry, fun _ => 0⟩ (operation.withAttached false)
      { s with registry := patched.registry }
  | some process =>
      let operation := operation.withAttached true
      let target : PatchRegistry.Patched := ⟨s.registry, s.memory process⟩
      let patched := PatchRegistry.step target operation
      { s with
        registry := patched.registry
        memory := Function.update s.memory process patched.memory
        origins := originsAfter process s.registry s.origins operation
        written := s.written ++
          (toggled target operation).map fun id => ⟨process, s.origins id⟩ }

/-- A `load` that succeeds has located the control block in the attached process. -/
def locatedAfter {Value : Type} (reply : Result Value) (s : App) : Option Process :=
  match reply with
  | .ok _ => s.session
  | .error _ => s.located

def speedLoad (payload : SpeedController.Payload) (s : App) : App :=
  let (speed, reply) := SpeedController.load s.session.isSome payload s.speed
  { s with speed, located := locatedAfter reply s }

def setScale (access : Access) (payload : SpeedController.Payload) (scale : SpeedController.Scale)
    (s : App) : App :=
  let (speed, prepared) := SpeedController.prepareScale s.session.isSome payload scale s.speed
  -- The block is located anew only where none was known.
  let located := if s.speed.requestedScale = 0 then locatedAfter prepared s else s.located
  let s := { s with speed, located }
  match s.session, prepared with
  | some process, .ok address =>
      let memory :=
        (writeBytes { access with attached := true } address scale.bytes (s.memory process)).1
      { s with
        memory := Function.update s.memory process memory
        written := s.written ++ [⟨process, located⟩] }
  | _, _ => s

def speedReset (first second : Access) (s : App) : App :=
  match s.session with
  | none => s
  | some process =>
      let memory := (SpeedController.reset { first with attached := true }
        { second with attached := true } s.speed (s.memory process)).1
      if s.speed.requestedScale = 0 ∨ s.speed.unhook = 0 then s
      else
        { s with
          memory := Function.update s.memory process memory
          written := s.written ++ [⟨process, s.located⟩] }

/-- `TargetSession::attach`. `opened` tells the process that has the pid, if it opens. -/
def attach (pid : Nat) (opened : Option Nat) (s : App) : App :=
  match opened with
  | none => s
  | some birth => { s with session := some ⟨pid, birth⟩ }

/-- `TargetSession::detach`. -/
def detach (s : App) : App := { s with session := none }

/-- The action of `requestDetach`. -/
def detachAction (liveScripts : Nat) (undo : Undo) (s : App) : App :=
  let s := if liveScripts > 0 then undo.scripts.foldl patchCall s else s
  let s := speedReset undo.first undo.second s
  let s := { s with speed := SpeedController.forget, located := none }
  detach { s with registry := PatchRegistry.forgetAll s.registry }

/-- `confirmAction`: a confirmation on screen is not replaced by another. -/
def confirmAction (confirmation : Confirmation) (s : App) : App :=
  match s.pending with
  | some _ => s
  | none => { s with pending := some confirmation }

/-- Whether `requestDetach` has something to warn about. -/
def warns (live : Live) (s : App) : Bool :=
  live.breakpoints != 0 || s.registry.patches.any (·.enabled) || live.scripts != 0

def requestDetach (live : Live) (undo : Undo) (s : App) : App :=
  if warns live s then confirmAction (.detach live.scripts) s else detachAction live.scripts undo s

/-- Whether the target panel asks before it attaches. -/
def asksFirst (pid : Nat) (s : App) : Bool :=
  match s.session with
  | none => false
  | some process => process.pid != pid

/-- The target panel's Attach button. -/
def attachButton (pid : Nat) (opened : Option Nat) (s : App) : App :=
  if asksFirst pid s then confirmAction (.attach pid) s else attach pid opened s

/-- The confirm button of the dialog. The action may queue another confirmation. -/
def confirm (opened : Option Nat) (live : Live) (undo : Undo) (s : App) : App :=
  match s.pending with
  | none => s
  | some confirmation =>
      let s := { s with pending := none }
      match confirmation with
      | .detach liveScripts => detachAction liveScripts undo s
      | .attach pid => attach pid opened (requestDetach live undo s)
      | .other => s

/-- The MCP `attach` tool. -/
def mcpAttach (pid : Nat) (opened : Option Nat) (s : App) : App := attach pid opened s

/-- The MCP `detach` tool. -/
def mcpDetach (s : App) : App := detach s

def luaAttach (pid : Nat) (opened : Option Nat) (s : App) : App := attach pid opened s

def luaDetach (s : App) : App := detach s

inductive Event
  | attachButton (pid : Nat) (opened : Option Nat)
  | detachButton (live : Live) (undo : Undo)
  | confirm (opened : Option Nat) (live : Live) (undo : Undo)
  | cancel
  | ask
  | mcpAttach (pid : Nat) (opened : Option Nat)
  | mcpDetach
  | luaAttach (pid : Nat) (opened : Option Nat)
  | luaDetach
  | patch (operation : PatchRegistry.Operation)
  | speedLoad (payload : SpeedController.Payload)
  | setScale (access : Access) (payload : SpeedController.Payload) (scale : SpeedController.Scale)
  | speedReset (first second : Access)

def step (s : App) : Event → App
  | .attachButton pid opened => attachButton pid opened s
  | .detachButton live undo => if s.session.isSome then requestDetach live undo s else s
  | .confirm opened live undo => confirm opened live undo s
  | .cancel => { s with pending := none }
  | .ask => confirmAction .other s
  | .mcpAttach pid opened => mcpAttach pid opened s
  | .mcpDetach => mcpDetach s
  | .luaAttach pid opened => luaAttach pid opened s
  | .luaDetach => luaDetach s
  | .patch operation => patchCall s operation
  | .speedLoad payload => speedLoad payload s
  | .setScale access payload scale => setScale access payload scale s
  | .speedReset first second => speedReset first second s

end PointerLab.AttachFlow
