import PointerLab.Sweep
import PointerLab.TargetView
import PointerLab.Values

set_option autoImplicit false

/- `scripting/LuaScanner.cpp`: a scan that asks a Lua predicate about every slot. The
interpreter is not modelled: a script is what loading it gave. The panel keeps the stride
below a page, so no index wraps. -/
namespace PointerLab.LuaScanner

open Domain Sweep TargetView

def chunkSize : Nat := 0x100000

/-- As many matches are gathered before they join the results. -/
def batchSize : Nat := 2048

structure LuaScanOptions where
  type : ValueType := .int32
  stride : Nat := 0
  maxResults : Nat := 50000
  writableOnly : Bool := false
  executableOnly : Bool := false
  deriving DecidableEq, Repr

def eligibleRegion (region : MemoryRegion) (options : LuaScanOptions) : Bool :=
  if !region.readable || region.size == 0 then false
  else if options.writableOnly && !region.writable then false
  else if options.executableOnly && !region.executable then false
  else true

/-- What `pushContext` shows a predicate; its other fields are spellings of these. -/
structure Context where
  address : Nat
  regionBase : Nat
  regionSize : Nat
  type : ValueType
  bytes : List UInt8
  deriving DecidableEq, Repr

/-- What became of loading the script: it was stopped, it failed, or it returned a
predicate, which answers a context or fails on it. -/
inductive Script
  | yielded
  | failed (message : String)
  | predicate (call : Context → Except String Bool)

/-- What `cancel_` reads at each place a scan looks at it, apart from what its own limit
sets: before a region, a chunk of it and a slot of the chunk, inside the predicate, and at
the end. -/
structure Cancel where
  region : Nat → Bool
  chunk : Nat → Nat → Bool
  slot : Nat → Nat → Nat → Bool
  hook : Nat → Nat → Nat → Bool
  done : Bool

def Cancel.never : Cancel :=
  { region := fun _ => false, chunk := fun _ _ => false, slot := fun _ _ _ => false,
    hook := fun _ _ _ => false, done := false }

/-- The state of a scan. `visited` records the addresses the predicate was called for, and
`dropped` whether the limit cut results off; `cancelled` is what the limit sets. -/
structure LuaScan where
  results : List ScanResult := []
  batch : List ScanResult := []
  cancelled : Bool := false
  error : Option String := none
  visited : List Nat := []
  dropped : Bool := false
  deriving DecidableEq, Repr

def LuaScan.stopped (scan : LuaScan) : Bool := scan.cancelled || scan.error.isSome

/-- The width of a slot. -/
def valueSize (options : LuaScanOptions) : Nat := valueTypeSize options.type

def strideOf (options : LuaScanOptions) : Nat :=
  if options.stride = 0 then valueSize options else max 1 options.stride

/-- A match: a Lua scan leaves the first-scan bytes empty. -/
def hitOf (context : Context) : ScanResult :=
  { address := context.address, previous := context.bytes, current := context.bytes, first := [] }

/-- The batch joins the results. -/
def flush (maxResults : Nat) (scan : LuaScan) : LuaScan :=
  let results := scan.results ++ scan.batch
  if maxResults < results.length then
    { scan with
      results := results.take maxResults, batch := [], cancelled := true, dropped := true }
  else { scan with results, batch := [] }

/-- A match joins the batch. -/
def keep (maxResults : Nat) (hit : ScanResult) (scan : LuaScan) : LuaScan :=
  let grown := { scan with batch := scan.batch ++ [hit] }
  if batchSize ≤ grown.batch.length then flush maxResults grown else grown

section Run

variable (view : TargetView) (options : LuaScanOptions) (call : Context → Except String Bool)
  (cancel : Cancel)

def contextAt (region : MemoryRegion) (offset : Nat) (buffer : List UInt8) (i : Nat) : Context :=
  { address := region.base + offset + i, regionBase := region.base, regionSize := region.size,
    type := options.type, bytes := (buffer.drop i).take (valueSize options) }

/-- The loop over the slots of one buffer. -/
def scanSlots (number : Nat) (region : MemoryRegion) (offset : Nat) (buffer : List UInt8) :
    List Nat → LuaScan → LuaScan
  | [], scan => scan
  | i :: rest, scan =>
      if scan.cancelled || cancel.slot number offset i then scan
      else
        let context := contextAt options region offset buffer i
        let asked := { scan with visited := scan.visited ++ [context.address] }
        if cancel.hook number offset i then asked
        else
          match call context with
          | .error message => { asked with error := some message }
          | .ok true =>
              scanSlots number region offset buffer rest
                (keep options.maxResults (hitOf context) asked)
          | .ok false => scanSlots number region offset buffer rest asked

def scanChunk (number : Nat) (region : MemoryRegion) (offset : Nat) (scan : LuaScan) : LuaScan :=
  let readSize := min (chunkSize + valueSize options) (region.size - offset)
  match readBytes view (region.base + offset) readSize with
  | .error _ => scan
  | .ok buffer =>
      if buffer.length < valueSize options then scan
      else
        scanSlots options call cancel number region offset buffer
          (steps (buffer.length + 1 - valueSize options) (strideOf options)) scan

def scanChunks (number : Nat) (region : MemoryRegion) : List Nat → LuaScan → LuaScan
  | [], scan => scan
  | offset :: rest, scan =>
      if scan.stopped || cancel.chunk number offset then scan
      else
        scanChunks number region rest
          (scanChunk view options call cancel number region offset scan)

def scanRegions : Nat → List MemoryRegion → LuaScan → LuaScan
  | _, [], scan => scan
  | number, region :: rest, scan =>
      if scan.stopped || cancel.region number then scan
      else if !eligibleRegion region options then scanRegions (number + 1) rest scan
      else
        scanRegions (number + 1) rest
          (scanChunks view options call cancel number region (steps region.size chunkSize) scan)

end Run

/-- The last batch joins the results. Unlike `flush`, a limit that cuts it is not reported. -/
def finish (maxResults : Nat) (scan : LuaScan) : LuaScan :=
  if scan.batch.isEmpty then scan
  else
    let results := scan.results ++ scan.batch
    if maxResults < results.length then
      { scan with results := results.take maxResults, batch := [], dropped := true }
    else { scan with results, batch := [] }

/-- `LuaScanJob::run`: what the scan ends with, and what it says. -/
def run (view : TargetView) (options : LuaScanOptions) (script : Script) (cancel : Cancel) :
    LuaScan × String :=
  if valueSize options = 0 then
    ({ error := some "Lua Scanner currently requires a fixed-size primitive type." },
      "Lua scan failed")
  else
    match script with
    | .yielded => ({}, "Lua scan cancelled")
    | .failed message => ({ error := some message }, "Lua scan failed")
    | .predicate call =>
        let scan := scanRegions view options call cancel 0 view.regions {}
        if scan.error.isSome then (scan, "Lua scan failed")
        else
          (finish options.maxResults scan,
            if cancel.done || scan.cancelled then "Lua scan cancelled or capped"
            else "Lua scan complete")

end PointerLab.LuaScanner
