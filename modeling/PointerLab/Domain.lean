import Mathlib.Init

set_option autoImplicit false

/- The data the engines share: `domain/Domain.h` and `infra/Result.h`. -/
namespace PointerLab

/-- A `std::string`: its bytes, one `Char` a byte. -/
abbrev Text := List Char

/-- A `std::wstring`: its UTF-16 code units. -/
abbrev WideText := List UInt16

/-- Addresses are `uintptr_t` on a 64-bit host. -/
def addressSpace : Nat := 0x10000000000000000

/-- One past the last address a user-mode process can map on 64-bit Windows. -/
def userSpaceEnd : Nat := 0x800000000000

/-- A `uint64_t` counter after `++`. -/
def bump (counter : Nat) : Nat := (counter + 1) % addressSpace

theorem bump_lt (counter : Nat) : bump counter < addressSpace := Nat.mod_lt _ (by decide)

theorem bump_ne (counter : Nat) : bump counter ≠ counter := by
  unfold bump addressSpace
  omega

/-- What a failed `infra::Result` carries. -/
structure Failure where
  message : String
  code : Nat := 0
  deriving DecidableEq, Repr

/-- `infra::Result<T>`. -/
abbrev Result (Value : Type) := Except Failure Value

/-- `infra::Result<T>::fail`. -/
def fail {Value : Type} (message : String) (code : Nat := 0) : Result Value :=
  .error { message, code }

namespace Domain

/-- `snprintf("0x%llX")`. -/
def toHex (value : Nat) : Text :=
  '0' :: 'x' :: (Nat.toDigits 16 value).map Char.toUpper

/-- `toHex` in an error message. -/
def hexString (value : Nat) : String := String.ofList (toHex value)

/-- The four bits of a hexadecimal digit, as `bytesToHex` writes them. -/
def upperDigit (value : Nat) : Char := (Nat.digitChar value).toUpper

/-- Two digits a byte. `spaces` puts a blank between bytes. -/
def bytesToHex (bytes : List UInt8) (spaces : Bool := true) : Text :=
  let pairs := bytes.map fun byte => [upperDigit (byte.toNat / 16), upperDigit (byte.toNat % 16)]
  if spaces then List.intercalate [' '] pairs else pairs.flatten

/-- The unsigned integer that bytes in memory are. -/
def littleEndian (bytes : List UInt8) : Nat :=
  bytes.foldr (fun byte number => byte.toNat + 256 * number) 0

/-- Bytes in memory are told apart by the integers that they are. -/
theorem littleEndian_injective {left right : List UInt8} (sameLength : left.length = right.length)
    (same : littleEndian left = littleEndian right) : left = right := by
  induction left generalizing right with
  | nil => exact (List.eq_nil_of_length_eq_zero sameLength.symm).symm
  | cons byte rest ih =>
      cases right with
      | nil => contradiction
      | cons other later =>
          have small := byte.toNat_lt
          have otherSmall := other.toNat_lt
          have whole : byte.toNat + 256 * littleEndian rest =
              other.toNat + 256 * littleEndian later := same
          have first : byte = other := UInt8.toNat_inj.mp (by omega)
          have tail : rest = later := ih (Nat.succ.inj sameLength) (by omega)
          rw [first, tail]

/-- Pointer width of the target. -/
inductive Bitness
  | x86
  | x64
  deriving DecidableEq, Repr

def pointerSize : Bitness → Nat
  | .x86 => 4
  | .x64 => 8

structure ModuleInfo where
  base : Nat
  size : Nat
  name : WideText
  path : WideText := []
  deriving DecidableEq, Repr

structure MemoryRegion where
  base : Nat
  size : Nat
  state : Nat := 0
  protect : Nat := 0
  type : Nat := 0
  readable : Bool := false
  writable : Bool := false
  executable : Bool := false
  deriving DecidableEq, Repr

/-- How a breakpoint is implemented inside the target. -/
inductive BreakpointKind
  | software
  | hardwareExecute
  | hardwareWrite
  | hardwareReadWrite
  deriving DecidableEq, Repr

def isHardware (kind : BreakpointKind) : Bool := kind != .software

def isValidWatchLength (length : Nat) : Bool :=
  length == 1 || length == 2 || length == 4 || length == 8

/-- The general registers of one thread, in the order the UI lists them. -/
structure Registers where
  rip : Nat := 0
  rsp : Nat := 0
  rbp : Nat := 0
  rax : Nat := 0
  rbx : Nat := 0
  rcx : Nat := 0
  rdx : Nat := 0
  rsi : Nat := 0
  rdi : Nat := 0
  r8 : Nat := 0
  r9 : Nat := 0
  r10 : Nat := 0
  r11 : Nat := 0
  r12 : Nat := 0
  r13 : Nat := 0
  r14 : Nat := 0
  r15 : Nat := 0
  deriving DecidableEq, Repr

/-- Register state captured when a breakpoint fires. -/
structure RegisterContext where
  registers : Registers := {}
  eflags : BitVec 32 := 0
  threadId : Nat := 0
  captured : Bool := false
  bitness : Bitness := .x64
  deriving DecidableEq, Repr

/-- One row of the breakpoint table. `slot` is the debug register of a hardware
breakpoint, `none` for the source's -1. -/
structure BreakpointInfo where
  address : Nat
  originalByte : UInt8 := 0
  hitCount : Nat := 0
  enabled : Bool := false
  label : String := ""
  lastHit : RegisterContext := {}
  kind : BreakpointKind := .software
  length : Nat := 1
  slot : Option (Fin 4) := none
  deriving DecidableEq, Repr

end Domain

end PointerLab
