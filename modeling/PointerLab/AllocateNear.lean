import PointerLab.Alignment
import PointerLab.Domain

set_option autoImplicit false

/- `platform_win32/Win32Platform.cpp`: a block of memory within reach of a five-byte jump. -/
namespace PointerLab.Win32Platform

open Domain Alignment

/-- What `VirtualQueryEx` tells of the pages around an address; `free` is the state `MEM_FREE`. -/
structure BasicInformation where
  baseAddress : Nat
  regionSize : Nat
  free : Bool
  deriving DecidableEq, Repr

/-- The calls that `allocateNear` makes. A block at address 0 stands for none. -/
structure Kernel where
  allocationGranularity : Nat
  virtualQuery : Nat → Option BasicInformation
  virtualAlloc : (address size : Nat) → Nat

def Kernel.granularity (kernel : Kernel) : Nat :=
  if kernel.allocationGranularity ≠ 0 then kernel.allocationGranularity else 0x10000

/-- Just under 2 GB. -/
def reach : Nat := 0x7FF00000

section Calls

variable (kernel : Kernel) (size : Nat)

/-- The loop over the slots of one free region: the block, or 0. Without a result it has not
ended after that many rounds. -/
def trySlots (last to_ : Nat) : (rounds candidate : Nat) → Option Nat
  | 0, _ => none
  | rounds + 1, candidate =>
      if (candidate + size) % 2 ^ 64 ≤ last ∧ candidate < to_ then
        let memory := kernel.virtualAlloc candidate size
        if memory ≠ 0 then some memory
        else trySlots last to_ rounds ((candidate + kernel.granularity) % 2 ^ 64)
      else some 0

/-- The loop over the regions. -/
def search (from_ to_ : Nat) : (rounds address : Nat) → Option Nat
  | 0, _ => none
  | rounds + 1, address =>
      if address < to_ then
        match kernel.virtualQuery address with
        | none => some 0
        | some region =>
            let last := (region.baseAddress + region.regionSize) % 2 ^ 64
            let first := alignUp 64 kernel.granularity (max region.baseAddress from_)
            let found := if region.free then trySlots kernel size last to_ rounds first else some 0
            match found with
            | none => none
            | some memory =>
                if memory ≠ 0 then some memory
                else if last ≤ address then some 0
                else search from_ to_ rounds last
      else some 0

/-- `Win32Platform::allocate`; the system's text for a failure is left out. -/
def allocate : Result Nat :=
  let memory := kernel.virtualAlloc 0 size
  if memory = 0 then fail "" else .ok memory

def allocateNear (rounds hint : Nat) : Option (Result Nat) :=
  if hint = 0 then some (allocate kernel size)
  else
    let low := if reach < hint then hint - reach else 0
    let high := if 2 ^ 64 - 1 - reach < hint then 2 ^ 64 - 1 else hint + reach
    match search kernel size hint high rounds (alignUp 64 kernel.granularity hint) with
    | none => none
    | some above =>
        if above ≠ 0 then some (.ok above)
        else
          match search kernel size low hint rounds (alignUp 64 kernel.granularity low) with
          | none => none
          | some below =>
              if below ≠ 0 then some (.ok below)
              else some (fail ("No free memory within 2 GB of " ++ hexString hint ++
                ", so a five-byte jump could not reach the allocation."))

end Calls

/-- Every byte from an address on, for a size that is not zero, is free. -/
def FreeBlock (free : Nat → Bool) (size address : Nat) : Prop :=
  0 < size ∧ ∀ byte, address ≤ byte → byte < address + size → free byte = true

/-- A process and the calls of the system on it: a query tells the pages around an address as they
are, a block at an address is handed out when all of it is free, and at address 0 any free block
is. User space is at most the lower half of all addresses. -/
structure AddressSpace extends Kernel where
  free : Nat → Bool
  limit : Nat
  user : limit ≤ 2 ^ 63
  inside : ∀ byte, free byte = true → byte < limit
  bits : Nat
  narrow : bits ≤ 30
  unit : toKernel.granularity = 2 ^ bits
  query_none : ∀ address, limit ≤ address → virtualQuery address = none
  query_some : ∀ address < limit, ∃ region, virtualQuery address = some region ∧
    region.baseAddress ≤ address ∧ address < region.baseAddress + region.regionSize ∧
    region.baseAddress + region.regionSize ≤ limit ∧
    (∀ byte, region.baseAddress ≤ byte → byte < region.baseAddress + region.regionSize →
      free byte = region.free) ∧
    (region.free = true → free (region.baseAddress + region.regionSize) = false)
  alloc_free : ∀ address size, address ≠ 0 → toKernel.granularity ∣ address →
    FreeBlock free size address → virtualAlloc address size = address
  alloc_taken : ∀ address size, address ≠ 0 → toKernel.granularity ∣ address →
    ¬FreeBlock free size address → virtualAlloc address size = 0
  pick_free : ∀ size, virtualAlloc 0 size ≠ 0 →
    toKernel.granularity ∣ virtualAlloc 0 size ∧ FreeBlock free size (virtualAlloc 0 size)
  pick_some : ∀ address size, address ≠ 0 → toKernel.granularity ∣ address →
    FreeBlock free size address → virtualAlloc 0 size ≠ 0

section Specification

variable (space : AddressSpace) (size hint : Nat)

/-- A granularity-aligned address with a free block. -/
structure Place (address : Nat) : Prop where
  aligned : space.granularity ∣ address
  room : FreeBlock space.free size address

/-- The lowest place from one address up to another. -/
structure FirstFit (from_ to_ address : Nat) : Prop where
  place : Place space size address
  above : from_ ≤ address
  below : address < to_
  first : ∀ other, Place space size other → from_ ≤ other → address ≤ other

/-- A five-byte jump at one address has a signed 32-bit displacement to another. -/
def Rel32 (jump destination : Nat) : Prop :=
  -(2 ^ 31) ≤ (destination : Int) - (jump + 5) ∧ (destination : Int) - (jump + 5) < 2 ^ 31

/-- Every byte of a block can be reached from an address, and the address from there. -/
def WithinReach (block : Nat) : Prop :=
  ∀ byte, block ≤ byte → byte < block + size → Rel32 hint byte ∧ Rel32 byte hint

/-- What is wanted of `allocateNear`. -/
def Near : Result Nat → Prop
  | .ok block => WithinReach size hint block
  | .error _ => ∀ address, Place space size address →
      address + reach ≤ hint ∨ hint + reach ≤ address

/-- The block that fits first, above the hint or else below it, is within reach; at address 0
this is the block that the system picks. Above a hint in the topmost unit nothing fits, and there
must be no place at all. -/
def FitsNear : Prop :=
  if 2 ^ 64 < hint + space.granularity then ∀ address, Place space size address → address = 0
  else
    ∀ address, FirstFit space size hint (hint + reach) address ∨
        (∀ other, Place space size other → hint ≤ other → hint + reach ≤ other) ∧
          FirstFit space size (hint - reach) hint address →
      if address ≠ 0 then WithinReach size hint address
      else if space.virtualAlloc 0 size ≠ 0 then
        WithinReach size hint (space.virtualAlloc 0 size)
      else reach ≤ hint

end Specification

end PointerLab.Win32Platform
