import PointerLab.TargetSession

set_option autoImplicit false

/- `engine_speed/SpeedController.cpp`: where the payload's control block lies in the
target, and the writes through it. -/
namespace PointerLab.SpeedController

open Domain TargetSession

/-- The addresses of the control block. Zero is an address not known. -/
structure Controller where
  requestedScale : Nat := 0
  appliedScale : Nat := 0
  hookCount : Nat := 0
  unhook : Nat := 0
  alive : Nat := 0
  deriving DecidableEq, Repr

/-- What `load` finds in the target and on disk. -/
structure Payload where
  readOnly : Bool := false
  bitness : String := "64-bit"
  /-- The payload's base in the module list, before and after it is loaded. -/
  baseBefore : Nat := 0
  path : String := ""
  pathExists : Bool := true
  loaded : Option Failure := none
  baseAfter : Nat := 0
  exports : Result (List (String × Nat)) := .ok []

/-- One step of the loop over the exports. A later export of a name wins. -/
def noteExport (block : Controller) : String × Nat → Controller
  | ("pl_requested_scale", address) => { block with requestedScale := address }
  | ("pl_applied_scale", address) => { block with appliedScale := address }
  | ("pl_hook_count", address) => { block with hookCount := address }
  | ("pl_unhook", address) => { block with unhook := address }
  | ("pl_alive", address) => { block with alive := address }
  | _ => block

def locateControlBlock (exports : Result (List (String × Nat))) (c : Controller) :
    Controller × Result Unit :=
  match exports with
  | .error failure => (c, fail ("Could not read the payload's exports: " ++ failure.message))
  | .ok entries =>
      let block := entries.foldl noteExport {}
      if block.requestedScale = 0 ∨ block.appliedScale = 0 ∨ block.hookCount = 0 ∨
          block.unhook = 0 ∨ block.alive = 0 then
        (c, fail ("A module with the payload's name is loaded, but it does not export the "
          ++ "control block. It is not this payload."))
      else (block, .ok ())

def load (attached : Bool) (payload : Payload) (c : Controller) : Controller × Result Unit :=
  if !attached then (c, fail "Attach to a process before changing its speed.")
  else if payload.readOnly then
    (c, fail ("Only a read-only handle to this process could be obtained, so nothing "
      ++ "can be injected into it. Run Pointer Lab as administrator."))
  else if payload.baseBefore ≠ 0 then locateControlBlock payload.exports c
  else if !payload.pathExists then
    (c, fail ("The " ++ payload.bitness ++ " speed payload is missing: " ++ payload.path
      ++ ". It ships beside PointerLab.exe."))
  else
    match payload.loaded with
    | some failure =>
        (c, fail ("Could not load the speed payload into the target: " ++ failure.message))
    | none =>
        if payload.baseAfter = 0 then
          (c, fail ("The payload was loaded but is not in the target's module list. If the "
            ++ "target is " ++ payload.bitness ++ ", check that the matching payload was built."))
        else locateControlBlock payload.exports c

/-- A `double`, as far as the controller looks at one. -/
structure Scale where
  /-- `scale >= minScale && scale <= maxScale`. -/
  inRange : Bool
  bytes : List UInt8

/-- The bytes of `1.0`. -/
def normalScale : List UInt8 := [0, 0, 0, 0, 0, 0, 0xF0, 0x3F]

/-- The bytes of an `int32_t` one. -/
def unhookRequest : List UInt8 := [1, 0, 0, 0]

/-- The range check of `setScale`. -/
def refuseScale : Result Unit :=
  fail ("Speed must be between 0.050000x and 20.000000x. Below that the game is stopped rather "
    ++ "than slow; above it a single frame moves things far enough to pass through walls.")

/-- `setScale` up to its write: the controller, and where to write if anywhere. -/
def prepareScale (attached : Bool) (payload : Payload) (scale : Scale) (c : Controller) :
    Controller × Result Nat :=
  if !scale.inRange then (c, refuseScale.map fun _ => 0)
  else if c.requestedScale ≠ 0 then (c, .ok c.requestedScale)
  else
    match load attached payload c with
    | (c, .error failure) => (c, .error failure)
    | (c, .ok ()) => (c, .ok c.requestedScale)

def setScale (access : Access) (payload : Payload) (scale : Scale) (c : Controller)
    (memory : Nat → UInt8) : Controller × (Nat → UInt8) × Result Unit :=
  match prepareScale access.attached payload scale c with
  | (c, .error failure) => (c, memory, .error failure)
  | (c, .ok address) => (c, writeBytes access address scale.bytes memory)

/-- `reset`. `first` and `second` are how its two writes end. -/
def reset (first second : Access) (c : Controller) (memory : Nat → UInt8) :
    (Nat → UInt8) × Result Unit :=
  if c.requestedScale = 0 ∨ c.unhook = 0 then (memory, .ok ())
  else
    match writeBytes first c.requestedScale normalScale memory with
    | (memory, .error failure) => (memory, .error failure)
    | (memory, .ok ()) => writeBytes second c.unhook unhookRequest memory

def forget : Controller := {}

end PointerLab.SpeedController
