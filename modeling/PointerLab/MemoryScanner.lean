import PointerLab.Sweep
import PointerLab.TargetView
import PointerLab.Values

set_option autoImplicit false

/- `engine_scan/MemoryScanner.cpp`: the first scan of a scan job and the pattern search.
Counters and addresses are natural numbers: no sum of the source wraps for a range that
ends a chunk below the top of the address space. -/
namespace PointerLab.MemoryScanner

open Domain Sweep TargetView

def chunkSize : Nat := 0x100000

/-- Floating-point comparison on the bytes of the operands. `Epsilon` is `double`. -/
structure Floats (Epsilon : Type) where
  zero : Epsilon
  /-- `epsilon > 0.0` -/
  positive : Epsilon → Bool
  /-- `fabs(c - e) <= epsilon` -/
  near : ValueType → List UInt8 → List UInt8 → Epsilon → Bool
  /-- `c > a` -/
  bigger : ValueType → List UInt8 → List UInt8 → Bool
  /-- `c < a` -/
  smaller : ValueType → List UInt8 → List UInt8 → Bool
  /-- `c >= min(a, b) && c <= max(a, b)` -/
  between : ValueType → List UInt8 → List UInt8 → List UInt8 → Bool

/-- No floating-point number is compared with another. -/
def noFloats : Floats Unit where
  zero := ()
  positive := fun _ => false
  near := fun _ _ _ _ => false
  bigger := fun _ _ _ => false
  smaller := fun _ _ _ => false
  between := fun _ _ _ _ => false

structure ScanOptions (Epsilon : Type) where
  maxResults : Nat := 1000000
  writableOnly : Bool := false
  executableOnly : Bool := false
  floatEpsilon : Epsilon

variable {Epsilon : Type} (floats : Floats Epsilon)

/-- `unpack`, still as bytes: zero when there are too few. -/
def unpack (size : Nat) (bytes : List UInt8) : List UInt8 :=
  if size ≤ bytes.length then bytes.take size else List.replicate size 0

/-- The integer that `size` bytes are for an integer type. -/
def integerValue (type : ValueType) (bytes : List UInt8) : Int :=
  match type with
  | .int8 | .int16 | .int32 | .int64 =>
      (BitVec.ofNat (8 * valueTypeSize type) (littleEndian bytes)).toInt
  | _ => littleEndian bytes

/-- `absoluteCompare`: the modes that order values, for the types that have an order. -/
def absoluteCompare (mode : ScanMode) (type : ValueType) (candidate low high : List UInt8) : Bool :=
  let size := valueTypeSize type
  if size == 0 || candidate.length < size then false
  else
    let c := candidate.take size
    let a := unpack size low
    let b := unpack size high
    if type == .float || type == .double then
      match mode with
      | .biggerThan => floats.bigger type c a
      | .smallerThan => floats.smaller type c a
      | .valueBetween => floats.between type c a b
      | _ => false
    else
      let c := integerValue type c
      let a := integerValue type a
      let b := integerValue type b
      match mode with
      | .biggerThan => a < c
      | .smallerThan => c < a
      | .valueBetween => min a b ≤ c && c ≤ max a b
      | _ => false

def foldAscii (byte : UInt8) : UInt8 :=
  if 65 ≤ byte && byte ≤ 90 then byte + 32 else byte

def stringMatches (candidate expected : List UInt8) (type : ValueType) (caseInsensitive : Bool) :
    Bool :=
  if !caseInsensitive then candidate.take expected.length == expected
  else if type == .stringUtf16 then
    (steps (expected.length - 1) 2).all fun i =>
      candidate.getD (i + 1) 0 == expected.getD (i + 1) 0 &&
        foldAscii (candidate.getD i 0) == foldAscii (expected.getD i 0)
  else
    (steps expected.length 1).all fun i =>
      foldAscii (candidate.getD i 0) == foldAscii (expected.getD i 0)

/-- `matchesExact`. The caller hands over at least as many bytes as are expected. -/
def matchesExact (candidate expected mask : List UInt8) (type : ValueType) (epsilon : Epsilon)
    (caseInsensitive : Bool := false) : Bool :=
  if isStringType type then stringMatches candidate expected type caseInsensitive
  else if floats.positive epsilon && type == .float && expected.length == 4 then
    floats.near type (candidate.take 4) expected epsilon
  else if floats.positive epsilon && type == .double && expected.length == 8 then
    floats.near type (candidate.take 8) expected epsilon
  else if mask.length == expected.length then
    (steps expected.length 1).all fun i =>
      mask.getD i 0 == 0 || candidate.getD i 0 == expected.getD i 0
  else candidate.take expected.length == expected

def firstScanMatches (mode : ScanMode) (value : ScanValue) (candidate : List UInt8)
    (epsilon : Epsilon) : Bool :=
  if mode == .exact then
    matchesExact floats candidate value.bytes value.mask value.type epsilon value.caseInsensitive
  else absoluteCompare floats mode value.type candidate value.bytes value.bytes2

def eligibleRegion (region : MemoryRegion) (options : ScanOptions Epsilon) : Bool :=
  if !region.readable || region.size == 0 then false
  else if options.writableOnly && !region.writable then false
  else if options.executableOnly && !region.executable then false
  else true

def modeNeedsBaseline : ScanMode → Bool
  | .changed | .unchanged | .increased | .decreased | .increasedBy | .decreasedBy
  | .sameAsFirst => true
  | .exact | .unknownInitial | .valueBetween | .biggerThan | .smallerThan => false

/-- A snapshot takes every value there is; the other modes filter. -/
def snapshot (mode : ScanMode) : Bool := modeNeedsBaseline mode || mode == .unknownInitial

def strideOf (mode : ScanMode) (type : ValueType) : Nat :=
  if snapshot mode then max 1 (valueTypeSize type) else 1

/-- What `cancel_` reads at each place a first scan looks at it: before a region, before
a chunk of it, before a candidate of the chunk, and at the end. -/
structure Cancel where
  region : Nat → Bool
  chunk : Nat → Nat → Bool
  candidate : Nat → Nat → Nat → Bool
  done : Bool

def Cancel.never : Cancel :=
  { region := fun _ => false, chunk := fun _ _ => false, candidate := fun _ _ _ => false,
    done := false }

/-- The results a scan holds, and whether their limit stopped it. -/
structure Scan where
  results : List ScanResult := []
  truncated : Bool := false
  deriving DecidableEq, Repr

section First

variable (view : TargetView) (options : ScanOptions Epsilon) (mode : ScanMode) (value : ScanValue)

/-- The hit at one place of a buffer. -/
def hitAt (address : Nat) (candidate : List UInt8) : ScanResult :=
  let current := candidate.take value.bytes.length
  { address, previous := current, current, first := current }

/-- The batch of one chunk. -/
def scanChunk (cancelled : Nat → Bool) (region : MemoryRegion) (offset : Nat) :
    List ScanResult :=
  let valueSize := value.bytes.length
  let span := min chunkSize (region.size - offset)
  -- A value across the end of the chunk is still found, but only in its own chunk.
  let readSize := min (span + valueSize - 1) (region.size - offset)
  match readBytes view (region.base + offset) readSize with
  | .error _ => []
  | .ok buffer =>
      if buffer.length < valueSize then []
      else
        let limit := min span (buffer.length - valueSize + 1)
        let candidates := (steps limit (strideOf mode value.type)).takeWhile fun i => !cancelled i
        let matched := candidates.filter fun i =>
          snapshot mode ||
            firstScanMatches floats mode value (buffer.drop i) options.floatEpsilon
        matched.map fun i => hitAt value (region.base + offset + i) (buffer.drop i)

/-- Adding a batch to the results. -/
def addBatch (maxResults : Nat) (batch : List ScanResult) (scan : Scan) : Scan :=
  if batch.isEmpty then scan
  else
    let results := scan.results ++ batch
    if maxResults ≤ results.length then { results := results.take maxResults, truncated := true }
    else { scan with results }

def scanChunks (cancel : Cancel) (number : Nat) (region : MemoryRegion) :
    List Nat → Scan → Scan
  | [], scan => scan
  | offset :: rest, scan =>
      if cancel.chunk number offset || scan.truncated then scan
      else
        let batch := scanChunk floats view options mode value (cancel.candidate number offset)
          region offset
        scanChunks cancel number region rest (addBatch options.maxResults batch scan)

def scanRegions (cancel : Cancel) : Nat → List MemoryRegion → Scan → Scan
  | _, [], scan => scan
  | number, region :: rest, scan =>
      if cancel.region number || scan.truncated then scan
      else if !eligibleRegion region options then scanRegions cancel (number + 1) rest scan
      else
        scanRegions cancel (number + 1) rest
          (scanChunks floats view options mode value cancel number region
            (steps region.size chunkSize) scan)

/-- `ScanJob::scanFirst`: what the scan holds at its end, and what it says. -/
def scanFirst (cancel : Cancel) : Scan × String :=
  if value.bytes.isEmpty then ({}, "Nothing to scan for: the value is empty.")
  else
    let scan := scanRegions floats view options mode value cancel 0 view.regions {}
    let status :=
      if cancel.done then "Scan cancelled"
      else if scan.truncated then
        "Stopped at the " ++ toString options.maxResults ++
          " result limit; narrow the scan or raise the limit"
      else if modeNeedsBaseline mode then
        "Baseline captured (" ++ toString scan.results.length ++
          " values). Run Next scan to filter by " ++ scanModeName mode ++ "."
      else "Scan complete"
    (scan, status)

end First

/-- The matches of one chunk, added to those before it. -/
def findInChunk (view : TargetView) (start size : Nat) (pattern : HexPattern) (maxResults : Nat)
    (found : List Nat) (offset : Nat) : List Nat :=
  let needle := pattern.bytes.length
  let span := min chunkSize (size - offset)
  let readSize := min (span + needle - 1) (size - offset)
  match readBytes view (start + offset) readSize with
  | .error _ => found
  | .ok buffer =>
      if buffer.length < needle then found
      else
        let limit := min span (buffer.length - needle + 1)
        untilFull maxResults
          (fun found i =>
            if matchesExact floats (buffer.drop i) pattern.bytes pattern.mask .bytes floats.zero
            then found ++ [start + offset + i] else found)
          (steps limit 1) found

/-- `findPattern`. -/
def findPattern (view : TargetView) (start size : Nat) (pattern : HexPattern)
    (maxResults : Nat := 64) : List Nat :=
  let needle := pattern.bytes.length
  if pattern.bytes.isEmpty || size < needle || !view.attached then []
  else
    untilFull maxResults (findInChunk floats view start size pattern maxResults)
      (steps (size - needle + 1) chunkSize) []

section Lemmas

/-- An exact match looks at as many bytes as are expected and no further. -/
theorem matchesExact_take (candidate expected mask : List UInt8) (type : ValueType)
    (epsilon : Epsilon) (caseInsensitive : Bool) :
    matchesExact floats (candidate.take expected.length) expected mask type epsilon
        caseInsensitive =
      matchesExact floats candidate expected mask type epsilon caseInsensitive := by
  have cell {index : Nat} (inside : index < expected.length) :
      (candidate.take expected.length).getD index 0 = candidate.getD index 0 := by
    rw [List.getD_eq_getElem?_getD, List.getElem?_take_of_lt inside,
      ← List.getD_eq_getElem?_getD]
  have each {limit stride : Nat} {left right : Nat → Bool} (positive : 0 < stride)
      (same : ∀ index < limit, left index = right index) :
      (steps limit stride).all left = (steps limit stride).all right := by
    rw [Bool.eq_iff_iff, List.all_eq_true, List.all_eq_true]
    refine forall₂_congr fun index inside => ?_
    rw [same index ((mem_steps positive).mp inside).1]
  unfold matchesExact
  split
  · unfold stringMatches
    split
    · rw [List.take_take, Nat.min_self]
    · split
      · refine each (by omega) fun index inside => ?_
        rw [cell (by omega), cell (by omega)]
      · refine each (by omega) fun index inside => ?_
        rw [cell inside]
  · split
    · rename_i four
      simp only [Bool.and_eq_true, beq_iff_eq] at four
      rw [four.2, List.take_take, Nat.min_self]
    · split
      · rename_i eight
        simp only [Bool.and_eq_true, beq_iff_eq] at eight
        rw [eight.2, List.take_take, Nat.min_self]
      · split
        · refine each (by omega) fun index inside => ?_
          rw [cell inside]
        · rw [List.take_take, Nat.min_self]

/-- An ordering looks at as many bytes as the type has. -/
theorem absoluteCompare_take {mode : ScanMode} {type : ValueType} {candidate low high : List UInt8}
    {count : Nat} (wide : valueTypeSize type ≤ count) :
    absoluteCompare floats mode type (candidate.take count) low high =
      absoluteCompare floats mode type candidate low high := by
  simp only [absoluteCompare, List.take_take, Nat.min_eq_left wide, List.length_take]
  have short : (min count candidate.length < valueTypeSize type) =
      (candidate.length < valueTypeSize type) := by
    apply propext
    omega
  simp only [short]

/-- Whether the mode orders values. -/
def Orders (mode : ScanMode) : Prop :=
  mode = .valueBetween ∨ mode = .biggerThan ∨ mode = .smallerThan

/-- A filter as wide as its value looks no further than the value. -/
theorem firstScanMatches_take {mode : ScanMode} {value : ScanValue} {epsilon : Epsilon}
    (filters : snapshot mode = false)
    (wide : Orders mode → valueTypeSize value.type ≤ value.bytes.length)
    (candidate : List UInt8) :
    firstScanMatches floats mode value (candidate.take value.bytes.length) epsilon =
      firstScanMatches floats mode value candidate epsilon := by
  unfold firstScanMatches
  split
  · exact matchesExact_take floats _ _ _ _ _ _
  · rename_i inexact
    have orders : Orders mode := by
      cases mode <;> simp_all [Orders, snapshot, modeNeedsBaseline]
    exact absoluteCompare_take floats (wide orders)

end Lemmas

end PointerLab.MemoryScanner
