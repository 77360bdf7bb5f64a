import Std.Data.TreeMap
import PointerLab.PatchRegistry

set_option autoImplicit false

/- Concurrent calls into one registry. A call holds `mutex_` only in its critical
sections and reads and writes the target between them, so other calls may do
anything in between. Each event is one section or one access of one thread. -/
namespace PointerLab.PatchRegistry

open Domain TargetSession Std

inductive Request
  | apply (address : Nat) (bytes : List UInt8) (description originalText : String)
  | setEnabled (id : Nat) (enabled : Bool)
  | remove (id : Nat)
  | restoreAll

/-- The arguments of an `apply` that holds a reservation. -/
structure Claim where
  id : Nat
  address : Nat
  bytes : List UInt8
  description : String := ""
  originalText : String := ""

/-- What a call does once its `setEnabled` has returned. -/
inductive Next
  | done
  | erase
  | restore (rest : List Nat) (failures total : Nat)

/-- Where a call in progress stands: the section or access it does next. -/
inductive Stage
  | applyRead (claim : Claim)
  | applyWrite (claim : Claim) (original : List UInt8)
  | applyRecord (claim : Claim) (original : List UInt8)
  | applyRelease (id : Nat) (failure : Failure)
  | toggleWrite (id : Nat) (enabled : Bool) (address : Nat) (bytes : List UInt8) (next : Next)
  | toggleFlag (id : Nat) (enabled : Bool) (next : Next)
  | erase (id : Nat)
  | restore (ids : List Nat) (failures total : Nat)

inductive Progress
  | pending (stage : Stage)
  /-- `apply` answers with the patch's id, the others with nothing. -/
  | finished (reply : Result (Option Nat))

/-- A `setEnabled` has returned to the call that made it. -/
def follow (id : Nat) (reply : Result Unit) : Next → Progress
  | .done => .finished (reply.map fun _ => none)
  | .erase =>
      match reply with
      | .error failure => .finished (.error failure)
      | .ok () => .pending (.erase id)
  | .restore rest failures total =>
      match reply with
      | .error _ => .pending (.restore rest (failures + 1) total)
      | .ok () => .pending (.restore rest failures total)

/-- The first section of `setEnabled`, within any call. -/
def beginToggle (id : Nat) (enabled : Bool) (next : Next) (r : Registry) : Progress :=
  match lookupToggle id enabled r with
  | .missing => follow id (fail "That patch is no longer in the list.") next
  | .already => follow id (.ok ()) next
  | .write address bytes => .pending (.toggleWrite id enabled address bytes next)

/-- The first section of a call. -/
def beginCall (access : Access) (r : Registry) : Request → Registry × Progress
  | .apply address bytes description originalText =>
      if bytes.isEmpty then (r, .finished (fail "A patch needs at least one byte."))
      else if !access.attached then (r, .finished (fail "No target process is attached."))
      else
        match reserve address bytes.length r with
        | (_, .error failure) => (r, .finished (.error failure))
        | (r, .ok id) => (r, .pending (.applyRead ⟨id, address, bytes, description, originalText⟩))
  | .setEnabled id enabled => (r, beginToggle id enabled .done r)
  | .remove id => (r, beginToggle id false .erase r)
  | .restoreAll =>
      let enabled := enabledIds r
      (r, .pending (.restore enabled 0 enabled.length))

/-- One more section or access of a call in progress. -/
def advance (access : Access) (s : Patched) : Stage → Patched × Progress
  | .applyRead claim =>
      match readOriginal access claim.address claim.bytes.length s.memory with
      | .error failure => (s, .pending (.applyRelease claim.id failure))
      | .ok original => (s, .pending (.applyWrite claim original))
  | .applyWrite claim original =>
      match writePatch access claim.address claim.bytes s.memory with
      | (memory, .error failure) => (⟨s.registry, memory⟩, .pending (.applyRelease claim.id failure))
      | (memory, .ok ()) => (⟨s.registry, memory⟩, .pending (.applyRecord claim original))
  | .applyRecord claim original =>
      let patch : Patch := ⟨claim.id, claim.address, original, claim.bytes, claim.description,
        claim.originalText, true⟩
      (⟨record patch s.registry, s.memory⟩, .finished (.ok (some claim.id)))
  | .applyRelease id failure => (⟨release id s.registry, s.memory⟩, .finished (.error failure))
  | .toggleWrite id enabled address bytes next =>
      match writeToggle access enabled address bytes s.memory with
      | (memory, .error failure) => (⟨s.registry, memory⟩, follow id (.error failure) next)
      | (memory, .ok ()) => (⟨s.registry, memory⟩, .pending (.toggleFlag id enabled next))
  | .toggleFlag id enabled next =>
      (⟨flag id enabled s.registry, s.memory⟩, follow id (.ok ()) next)
  | .erase id => (⟨erase id s.registry, s.memory⟩, .finished (.ok none))
  | .restore [] failures total =>
      (s, .finished ((restoreReply failures total).map fun _ => none))
  | .restore (id :: rest) failures total =>
      (s, beginToggle id false (.restore rest failures total) s.registry)

/-- The registry, the target, and the call each thread has in progress. -/
structure Shared where
  patched : Patched
  calls : TreeMap Nat Stage := ∅

inductive CallEvent
  | begin (thread : Nat) (request : Request) (access : Access)
  | resume (thread : Nat) (access : Access)

def CallEvent.access : CallEvent → Access
  | .begin _ _ access => access
  | .resume _ access => access

def proceed (thread : Nat) (calls : TreeMap Nat Stage) : Progress → TreeMap Nat Stage
  | .pending stage => calls.insert thread stage
  | .finished _ => calls.erase thread

/-- A thread is in one call at a time. -/
def callStep (s : Shared) : CallEvent → Shared
  | .begin thread request access =>
      match s.calls[thread]? with
      | some _ => s
      | none =>
          let (registry, progress) := beginCall access s.patched.registry request
          ⟨⟨registry, s.patched.memory⟩, proceed thread s.calls progress⟩
  | .resume thread access =>
      match s.calls[thread]? with
      | none => s
      | some stage =>
          let (patched, progress) := advance access s.patched stage
          ⟨patched, proceed thread s.calls progress⟩

namespace Stage

/-- The patch a call is between looking up and flagging, and what it makes of it. -/
def toggles : Stage → Option (Nat × Bool)
  | .toggleWrite id enabled _ _ _ => some (id, enabled)
  | .toggleFlag id enabled _ => some (id, enabled)
  | _ => none

/-- The reservation a call holds. -/
def claims : Stage → Option Nat
  | .applyRead claim => some claim.id
  | .applyWrite claim _ => some claim.id
  | .applyRecord claim _ => some claim.id
  | .applyRelease id _ => some id
  | _ => none

end Stage

/-- Whether some call in progress is toggling the patch that way. -/
def toggling (id : Nat) (enabled : Bool) (s : Shared) : Bool :=
  s.calls.toList.any fun (_, stage) => stage.toggles == some (id, enabled)

/-- Whether `setEnabled` would now start a write against one that goes the other way. -/
def opposes (id : Nat) (enabled : Bool) (s : Shared) : Bool :=
  match lookupToggle id enabled s.patched.registry with
  | .write _ _ => toggling id (!enabled) s
  | _ => false

/-- Whether erasing the record now would leave the patch in the target. -/
def strands (id : Nat) (s : Shared) : Bool :=
  s.patched.registry.patches.any (fun patch => patch.id == id && patch.enabled) ||
    toggling id true s

/-- Whether a call in progress is about to write into the range for a patch that has no
record any more. -/
def trespassed (address size : Nat) (s : Shared) : Bool :=
  s.calls.toList.any fun (_, stage) =>
    match stage with
    | .toggleWrite id _ place bytes _ =>
        !s.patched.registry.patches.any (fun patch => patch.id == id) &&
          place < address + size && address < place + bytes.length
    | _ => false

end PointerLab.PatchRegistry
