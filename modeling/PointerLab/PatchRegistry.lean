import PointerLab.TargetSession

set_option autoImplicit false

/- `engine_patch/PatchRegistry.cpp`. The critical sections are functions of their own:
the calls below run them one after the other, and concurrent calls interleave them. -/
namespace PointerLab.PatchRegistry

open Domain TargetSession

structure Patch where
  id : Nat
  address : Nat
  originalBytes : List UInt8
  patchedBytes : List UInt8
  description : String := ""
  originalText : String := ""
  enabled : Bool := false
  deriving DecidableEq, Repr

namespace Patch

def size (patch : Patch) : Nat := patch.originalBytes.length

/-- `Patch::end`, in `uintptr_t` arithmetic. -/
def stop (patch : Patch) : Nat := (patch.address + patch.size) % addressSpace

end Patch

/-- A range an `apply` in progress has claimed but not yet recorded. -/
structure Reservation where
  id : Nat
  address : Nat
  size : Nat
  deriving DecidableEq, Repr

structure Registry where
  patches : List Patch := []
  reserved : List Reservation := []
  nextId : Nat := 1
  deriving DecidableEq, Repr

/-- `overlapsLocked`. -/
def overlaps (address size ignoreId : Nat) (r : Registry) : Bool :=
  let stop := (address + size) % addressSpace
  let recorded := r.patches.any fun patch =>
    patch.id != ignoreId && address < patch.stop && patch.address < stop
  let reserved := r.reserved.any fun range =>
    address < (range.address + range.size) % addressSpace && range.address < stop
  recorded || reserved

/-- `releaseLocked`. -/
def release (reservationId : Nat) (r : Registry) : Registry :=
  { r with reserved := r.reserved.filter fun range => range.id != reservationId }

/-- The first section of `apply`: the range is free, and taken from here on. -/
def reserve (address size : Nat) (r : Registry) : Registry × Result Nat :=
  if overlaps address size 0 r then
    (r, fail ("That range overlaps a patch that is already recorded. Remove the existing patch "
      ++ "first -- otherwise this patch's \"original\" bytes would be the other patch's "
      ++ "replacement, and disabling them in the wrong order would leave code that never "
      ++ "existed."))
  else
    ({ r with
        nextId := r.nextId + 1
        reserved := r.reserved ++ [⟨r.nextId, address, size⟩] }, .ok r.nextId)

/-- The originals, in full or not at all. -/
def readOriginal (access : Access) (address size : Nat) (memory : Nat → UInt8) :
    Result (List UInt8) :=
  match readBytes access address size memory with
  | .error failure =>
      fail ("Could not read the original bytes at " ++ hexString address ++ ": " ++ failure.message)
        failure.code
  | .ok original =>
      if original.length ≠ size then
        fail ("Only " ++ toString original.length ++ " of " ++ toString size ++ " bytes at "
          ++ hexString address ++ " could be read, so the original could not be recorded in full.")
      else .ok original

/-- The write of `apply`. -/
def writePatch (access : Access) (address : Nat) (bytes : List UInt8) (memory : Nat → UInt8) :
    (Nat → UInt8) × Result Unit :=
  match writeBytes access address bytes memory with
  | (memory, .error failure) =>
      (memory, fail ("Could not patch " ++ hexString address ++ ": " ++ failure.message) failure.code)
  | (memory, .ok ()) => (memory, .ok ())

/-- The last section of `apply`: the reservation becomes a record. -/
def record (patch : Patch) (r : Registry) : Registry :=
  { release patch.id r with patches := r.patches ++ [patch] }

/-- What `setEnabled` finds under its first lock. -/
inductive Toggle
  | missing
  | already
  | write (address : Nat) (bytes : List UInt8)
  deriving DecidableEq, Repr

/-- The first section of `setEnabled`. -/
def lookupToggle (id : Nat) (enabled : Bool) (r : Registry) : Toggle :=
  match r.patches.find? fun patch => patch.id == id with
  | none => .missing
  | some patch =>
      if patch.enabled = enabled then .already
      else .write patch.address (if enabled then patch.patchedBytes else patch.originalBytes)

/-- The write of `setEnabled`. -/
def writeToggle (access : Access) (enabled : Bool) (address : Nat) (bytes : List UInt8)
    (memory : Nat → UInt8) : (Nat → UInt8) × Result Unit :=
  if !access.attached then (memory, fail "No target process is attached.")
  else
    match writeBytes access address bytes memory with
    | (memory, .error failure) =>
        (memory, fail ("Could not " ++ (if enabled then "re-apply" else "restore") ++ " "
          ++ hexString address ++ ": " ++ failure.message) failure.code)
    | (memory, .ok ()) => (memory, .ok ())

/-- The flag of the first record with the id, if there still is one. -/
def markEnabled (id : Nat) (enabled : Bool) : List Patch → List Patch
  | [] => []
  | patch :: rest =>
      if patch.id = id then { patch with enabled := enabled } :: rest
      else patch :: markEnabled id enabled rest

/-- The last section of `setEnabled`. -/
def flag (id : Nat) (enabled : Bool) (r : Registry) : Registry :=
  { r with patches := markEnabled id enabled r.patches }

/-- The last section of `remove`. -/
def erase (id : Nat) (r : Registry) : Registry :=
  { r with patches := r.patches.filter fun patch => patch.id != id }

/-- The first section of `restoreAll`. -/
def enabledIds (r : Registry) : List Nat :=
  (r.patches.filter (·.enabled)).map (·.id)

/-- `std::any_of`, as `covers` asks it. -/
def covers (address : Nat) (r : Registry) : Bool :=
  r.patches.any fun patch => patch.enabled && patch.address ≤ address && address < patch.stop

/-- `forgetAll`: the records go, the target keeps what it has. -/
def forgetAll (r : Registry) : Registry := { r with patches := [] }

/-- The registry and the target it patches. -/
structure Patched where
  registry : Registry
  memory : Nat → UInt8

/-- `apply`, with nothing in between. -/
def apply (access : Access) (address : Nat) (bytes : List UInt8) (description originalText : String)
    (s : Patched) : Patched × Result Nat :=
  if bytes.isEmpty then (s, fail "A patch needs at least one byte.")
  else if !access.attached then (s, fail "No target process is attached.")
  else
    match reserve address bytes.length s.registry with
    | (_, .error failure) => (s, .error failure)
    | (claimed, .ok id) =>
        match readOriginal access address bytes.length s.memory with
        | .error failure => ({ s with registry := release id claimed }, .error failure)
        | .ok original =>
            match writePatch access address bytes s.memory with
            | (memory, .error failure) => (⟨release id claimed, memory⟩, .error failure)
            | (memory, .ok ()) =>
                let patch : Patch := ⟨id, address, original, bytes, description, originalText, true⟩
                (⟨record patch claimed, memory⟩, .ok id)

/-- `setEnabled`, with nothing in between. -/
def setEnabled (access : Access) (id : Nat) (enabled : Bool) (s : Patched) :
    Patched × Result Unit :=
  match lookupToggle id enabled s.registry with
  | .missing => (s, fail "That patch is no longer in the list.")
  | .already => (s, .ok ())
  | .write address bytes =>
      match writeToggle access enabled address bytes s.memory with
      | (memory, .error failure) => ({ s with memory := memory }, .error failure)
      | (memory, .ok ()) => (⟨flag id enabled s.registry, memory⟩, .ok ())

/-- `remove`. A patch that could not be put back keeps its record. -/
def remove (access : Access) (id : Nat) (s : Patched) : Patched × Result Unit :=
  match setEnabled access id false s with
  | (s, .error failure) => (s, .error failure)
  | (s, .ok ()) => ({ s with registry := erase id s.registry }, .ok ())

/-- The loop of `restoreAll`; `access` is how each patch's write ends. -/
def restoreEach (access : Nat → Access) : List Nat → Patched → Patched × Nat
  | [], s => (s, 0)
  | id :: rest, s =>
      match setEnabled (access id) id false s with
      | (s, .error _) =>
          let (s, failures) := restoreEach access rest s
          (s, failures + 1)
      | (s, .ok ()) => restoreEach access rest s

/-- What `restoreAll` answers. -/
def restoreReply (failures total : Nat) : Result Unit :=
  if failures ≠ 0 then
    fail (toString failures ++ " of " ++ toString total
      ++ " patches could not be restored; see the log.")
  else .ok ()

def restoreAll (access : Nat → Access) (s : Patched) : Patched × Result Unit :=
  let enabled := enabledIds s.registry
  let (s, failures) := restoreEach access enabled s
  (s, restoreReply failures enabled.length)

/-- One call after the other. -/
inductive Operation
  | apply (address : Nat) (bytes : List UInt8) (description originalText : String) (access : Access)
  | setEnabled (id : Nat) (enabled : Bool) (access : Access)
  | remove (id : Nat) (access : Access)
  | restoreAll (access : Nat → Access)

/-- The same call with the session attached or not. -/
def Operation.withAttached (attached : Bool) : Operation → Operation
  | .apply address bytes description originalText access =>
      .apply address bytes description originalText { access with attached }
  | .setEnabled id enabled access => .setEnabled id enabled { access with attached }
  | .remove id access => .remove id { access with attached }
  | .restoreAll access => .restoreAll fun id => { access id with attached }

def step (s : Patched) : Operation → Patched
  | .apply address bytes description originalText access =>
      (apply access address bytes description originalText s).1
  | .setEnabled id enabled access => (setEnabled access id enabled s).1
  | .remove id access => (remove access id s).1
  | .restoreAll access => (restoreAll access s).1

end PointerLab.PatchRegistry
