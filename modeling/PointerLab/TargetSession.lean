import PointerLab.Domain
import PointerLab.Overlay

set_option autoImplicit false

/- `domain/TargetSession.cpp`: reads and writes of the attached target. How a system
call ends is not the program's to decide, so each access carries its outcome. -/
namespace PointerLab.TargetSession

open Overlay

/-- How the session answers one critical step of a caller. -/
structure Access where
  attached : Bool := true
  /-- How many bytes from the address on can be read, or why none can. -/
  read : Except Failure Nat := .ok userSpaceEnd
  write : Option Failure := none

/-- `readBytes`. The part of a range that runs past user space is never readable. -/
def readBytes (access : Access) (address size : Nat) (memory : Nat → UInt8) :
    Result (List UInt8) :=
  if !access.attached then fail "No target process attached."
  else
    match access.read with
    | .error failure => .error failure
    | .ok readable => .ok (slice memory address (min size (min readable (userSpaceEnd - address))))

/-- `writeBytes`. What a write has copied before it failed is not laid over memory here. -/
def writeBytes (access : Access) (address : Nat) (bytes : List UInt8) (memory : Nat → UInt8) :
    (Nat → UInt8) × Result Unit :=
  if !access.attached then (memory, fail "No target process attached.")
  else
    match access.write with
    | some failure => (memory, .error failure)
    | none => (overlay memory address bytes, .ok ())

/-- A read that returns every byte asked for lies in user space. -/
theorem readBytes_full {access : Access} {address size : Nat} {memory : Nat → UInt8}
    {bytes : List UInt8} (answered : readBytes access address size memory = .ok bytes)
    (whole : bytes.length = size) (nonempty : 0 < size) :
    bytes = slice memory address size ∧ address + size ≤ userSpaceEnd := by
  unfold readBytes at answered
  split at answered
  · contradiction
  · split at answered
    · contradiction
    · rename_i readable _
      have cells := Except.ok.inj answered
      have length : min size (min readable (userSpaceEnd - address)) = size := by
        rw [← cells, slice_length] at whole
        exact whole
      rw [length] at cells
      exact ⟨cells.symm, by omega⟩

/-- The two ways a write ends. -/
theorem writeBytes_cases (access : Access) (address : Nat) (bytes : List UInt8)
    (memory : Nat → UInt8) :
    writeBytes access address bytes memory = (overlay memory address bytes, .ok ()) ∨
      ∃ failure, writeBytes access address bytes memory = (memory, .error failure) := by
  unfold writeBytes
  split
  · exact Or.inr ⟨_, rfl⟩
  · split
    · exact Or.inr ⟨_, rfl⟩
    · exact Or.inl rfl

end PointerLab.TargetSession
