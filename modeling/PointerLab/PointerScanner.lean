import Mathlib.Data.List.Sort
import PointerLab.Sweep
import PointerLab.TargetView
import PointerLab.Values

set_option autoImplicit false

/- `engine_pointer/PointerScanner.cpp`: the reverse search for pointer chains, and the walk
along one. The loops over regions, chunks and slots only decide which slots are looked at
and in what order, so they are the list of those slots. -/
namespace PointerLab.PointerScanner

open Domain Sweep TargetView

def pointerChunkSize : Nat := 0x100000

structure PointerScanOptions where
  target : Nat
  maxDepth : Nat := 3
  maxOffset : Nat := 0x1000
  maxResults : Nat := 10000
  maxFrontier : Nat := 200000
  deriving DecidableEq, Repr

/-- What `cancel_` reads at each place a scan looks at it: before a depth, before a region
of that depth, before a chunk of that region, before a slot of that chunk, and at the end. -/
structure Cancel where
  depth : Nat → Bool
  region : Nat → MemoryRegion → Bool
  chunk : Nat → MemoryRegion → Nat → Bool
  slot : Nat → MemoryRegion → Nat → Nat → Bool
  done : Bool

def Cancel.never : Cancel :=
  { depth := fun _ => false, region := fun _ _ => false, chunk := fun _ _ _ => false,
    slot := fun _ _ _ _ => false, done := false }

def contains (module : ModuleInfo) (address : Nat) : Bool :=
  module.base ≤ address && address < module.base + module.size

/-- An address that leads to the target, and the offsets of the way there. -/
structure Candidate where
  address : Nat
  offsets : List Int
  deriving DecidableEq, Repr

/-- What a scan has so far: every address ever placed in a frontier, the frontier of the
next depth, the chains, and whether a limit dropped anything. -/
structure Progress where
  seen : List Nat
  next : List Candidate := []
  results : List PointerChain := []
  truncated : Bool := false
  deriving DecidableEq, Repr

/-- The slots of one chunk with the pointers in them. -/
def slotsOfChunk (view : TargetView) (cancelled : Nat → Bool) (region : MemoryRegion)
    (offset : Nat) : List (Nat × Nat) :=
  let ptrSize := pointerSize view.bitness
  let readSize := min pointerChunkSize (region.size - offset)
  match readBytes view (region.base + offset) readSize with
  | .error _ => []
  | .ok buffer =>
      let offsets := (steps (buffer.length + 1 - ptrSize) ptrSize).takeWhile fun i => !cancelled i
      offsets.map fun i =>
        (region.base + offset + i, littleEndian ((buffer.drop i).take ptrSize))

def slotsOfRegion (view : TargetView) (cancel : Cancel) (depth : Nat) (region : MemoryRegion) :
    List (Nat × Nat) :=
  if cancel.region depth region || !region.readable then []
  else
    let offsets := (steps region.size pointerChunkSize).takeWhile fun offset =>
      !cancel.chunk depth region offset
    offsets.flatMap fun offset =>
      slotsOfChunk view (cancel.slot depth region offset) region offset

/-- The slots a depth looks at, in order. -/
def slots (view : TargetView) (cancel : Cancel) (depth : Nat) : List (Nat × Nat) :=
  view.regions.flatMap (slotsOfRegion view cancel depth)

/-- The chain that starts at an address of a module. -/
def chainOf (module : ModuleInfo) (candidate : Candidate) : PointerChain :=
  { moduleName := module.name, moduleBase := module.base,
    moduleOffset := candidate.address - module.base, offsets := candidate.offsets }

section Run

variable (modules : List ModuleInfo) (options : PointerScanOptions)

/-- A chain is only useful if its base is a fixed point in a module. -/
def report (candidate : Candidate) (progress : Progress) : Progress :=
  match modules.find? fun module => contains module candidate.address with
  | none => progress
  | some module =>
      if progress.results.length < options.maxResults then
        { progress with results := progress.results ++ [chainOf module candidate] }
      else { progress with truncated := true }

def push (candidate : Candidate) (progress : Progress) : Progress :=
  if progress.next.length < options.maxFrontier then
    { progress with next := progress.next ++ [candidate] }
  else { progress with truncated := true }

/-- A slot that leads to the target and has not been seen before. -/
def join (candidate : Candidate) (progress : Progress) : Progress :=
  push options candidate
    (report modules options candidate
      { progress with seen := candidate.address :: progress.seen })

/-- One target that the pointer in the slot `found` comes close to. -/
def visitMatch (found pointerValue : Nat) (progress : Progress) (source : Candidate) :
    Progress :=
  if progress.seen.contains found then progress
  else
    join modules options
      { address := found, offsets := (source.address - pointerValue : Int) :: source.offsets }
      progress

/-- The targets from the lower bound of a pointer on that are within reach of it. -/
def matchesOf (sorted : List Candidate) (pointerValue : Nat) : List Candidate :=
  (sorted.dropWhile fun source => source.address < pointerValue).takeWhile fun source =>
    source.address - pointerValue ≤ options.maxOffset

def visitSlot (sorted : List Candidate) (progress : Progress) (slot : Nat × Nat) : Progress :=
  if slot.2 = 0 then progress
  else
    (matchesOf options sorted slot.2).foldl (visitMatch modules options slot.1 slot.2) progress

/-- The frontier in the order of its addresses, which are all different. -/
def sortTargets (frontier : List Candidate) : List Candidate :=
  frontier.insertionSort fun a b => a.address ≤ b.address

/-- The loop over the depths. -/
def scanDepths (view : TargetView) (cancel : Cancel) :
    Nat → Nat → List Candidate → Progress → Progress
  | 0, _, _, progress => progress
  | remaining + 1, depth, frontier, progress =>
      if cancel.depth depth then progress
      else
        let swept := (slots view cancel depth).foldl
          (visitSlot modules options (sortTargets frontier)) { progress with next := [] }
        if swept.next.isEmpty then swept
        else scanDepths view cancel remaining (depth + 1) swept.next swept

end Run

/-- `PointerScanJob::run`: what the scan ends with, and what it says. -/
def run (view : TargetView) (options : PointerScanOptions) (cancel : Cancel) : Progress × String :=
  let progress := scanDepths view.modules options view cancel options.maxDepth 0
    [{ address := options.target, offsets := [] }] { seen := [options.target] }
  let status :=
    if cancel.done then "Pointer scan cancelled"
    else if progress.truncated then
      "Stopped at the " ++ toString options.maxResults ++
        " chain limit; lower the depth or the maximum offset"
    else "Pointer scan complete: " ++ toString progress.results.length ++ " chain(s)"
  (progress, status)

/-- The loop of `resolveChain`. A sum wraps as `uintptr_t` does. -/
def walk (view : TargetView) : Nat → List Int → Result Nat
  | address, [] => .ok address
  | address, offset :: rest =>
      match readPointer view address with
      | .error _ =>
          fail ("The chain broke: nothing readable at " ++ hexString address ++ ".")
      | .ok pointer =>
          if pointer = 0 then
            fail ("The chain broke: a null pointer at " ++ hexString address ++ ".")
          else walk view ((pointer + offset) % addressSpace).toNat rest

def sameName (left right : WideText) : Bool :=
  left.map toLowerWide == right.map toLowerWide

/-- `resolveChain`: the module is looked up by name every time. -/
def resolveChain (view : TargetView) (narrow : WideText → Text) (chain : PointerChain) :
    Result Nat :=
  if !view.attached then fail "No target process is attached."
  else if !chain.valid then fail "The pointer chain is incomplete."
  else
    let moduleBase :=
      if chain.moduleRooted then
        match view.modules.find? fun module => sameName module.name chain.moduleName with
        | none => 0
        | some module => module.base
      else 0
    if chain.moduleRooted && moduleBase == 0 then
      fail (String.ofList (narrow chain.moduleName) ++ " is not loaded in the target.")
    else walk view ((moduleBase + chain.moduleOffset) % addressSpace) chain.offsets

end PointerLab.PointerScanner
