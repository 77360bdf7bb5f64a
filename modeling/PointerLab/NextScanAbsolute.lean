import PointerLab.NextScanHistory
import PointerLab.ScanFirst

set_option autoImplicit false

/- A next scan for the value of the first one. The first scan compares in place, inside a
larger buffer; the next scan reads each candidate again. -/
namespace PointerLab.MemoryScanner

open Domain Sweep TargetView

variable {Epsilon : Type} {floats : FloatSteps Epsilon}

/-- Whether the mode tests a value as it stands. -/
def Absolute (mode : ScanMode) : Prop := mode = .exact ∨ Orders mode

/-- What an ordering mode compares is as wide as its type. -/
def Wide (mode : ScanMode) (value : ScanValue) : Prop :=
  Orders mode → valueTypeSize value.type ≤ value.bytes.length

/-- The value fits at the address, inside one region that a first scan looks at. -/
def FitsAt (view : TargetView) (options : ScanOptions Epsilon) (value : ScanValue)
    (address : Nat) : Prop :=
  ∃ region ∈ view.regions, eligibleRegion region options = true ∧ region.base ≤ address ∧
    address + value.bytes.length ≤ region.base + region.size

variable {view : TargetView} {options : ScanOptions Epsilon} {mode : ScanMode} {value : ScanValue}

theorem Absolute.filters (absolute : Absolute mode) : snapshot mode = false := by
  rcases absolute with rfl | rfl | rfl | rfl <;> rfl

/-- The two comparisons agree on as many bytes as the value has. -/
theorem compareValues_eq (absolute : Absolute mode) {current previous first : List UInt8}
    {epsilon : Epsilon} (nonempty : value.bytes ≠ [])
    (length : current.length = value.bytes.length) :
    compareValues floats mode value current previous first epsilon =
      firstScanMatches floats.toFloats mode value current epsilon := by
  rcases absolute with rfl | rfl | rfl | rfl
  · have enough : (current.length < value.bytes.length || value.bytes.isEmpty) = false := by
      simp [length, nonempty]
    show (if (current.length < value.bytes.length || value.bytes.isEmpty) = true then false
      else _) = _
    rw [enough, if_neg Bool.false_ne_true]
    rfl
  · rfl
  · rfl
  · rfl

/-- An ordering needs all the bytes of its type. -/
theorem compareValues_narrow (narrow : ¬ Wide mode value) {current previous first : List UInt8}
    {epsilon : Epsilon} (length : current.length = value.bytes.length) :
    compareValues floats mode value current previous first epsilon = false := by
  obtain ⟨orders, short⟩ := Classical.not_imp.mp narrow
  have compared : compareValues floats mode value current previous first epsilon =
      absoluteCompare floats.toFloats mode value.type current value.bytes value.bytes2 := by
    rcases orders with rfl | rfl | rfl <;> rfl
  rw [compared]
  simp only [absoluteCompare]
  rw [if_pos]
  simp only [Bool.or_eq_true, beq_iff_eq, decide_eq_true_eq]
  omega

/-- Without a value there is nothing to compare with. -/
theorem compareValues_empty (absolute : Absolute mode) (wide : Wide mode value)
    (empty : value.bytes = []) {current previous first : List UInt8} {epsilon : Epsilon} :
    compareValues floats mode value current previous first epsilon = false := by
  rcases absolute with rfl | orders
  · simp [compareValues, empty]
  · have sizeless : valueTypeSize value.type = 0 := by
      have size := wide orders
      rw [empty, List.length_nil] at size
      omega
    have compared : compareValues floats mode value current previous first epsilon =
        absoluteCompare floats.toFloats mode value.type current value.bytes value.bytes2 := by
      rcases orders with rfl | rfl | rfl <;> rfl
    rw [compared]
    simp [absoluteCompare, sizeless]

/-- A read of an attached target that gets everything it asks for. -/
theorem holds_eq (nonempty : value.bytes ≠ []) (attached : view.attached = true)
    {candidate : ScanResult}
    (whole : (readable view.memory candidate.address value.bytes.length).length =
      value.bytes.length) :
    holds view value candidate =
      some (readable view.memory candidate.address value.bytes.length) := by
  have positive := List.length_pos_of_ne_nil nonempty
  have width : readWidth value candidate = value.bytes.length := by
    unfold readWidth
    rw [if_pos (by simpa using nonempty)]
  exact holds_readable attached width positive whole

/-- What the scan makes of a candidate that it can read whole. -/
theorem survivor_eq (absolute : Absolute mode) (nonempty : value.bytes ≠ [])
    (attached : view.attached = true) {candidate : ScanResult}
    (whole : (readable view.memory candidate.address value.bytes.length).length =
      value.bytes.length) :
    survivor floats view options mode value candidate =
      if firstScanMatches floats.toFloats mode value
          (readable view.memory candidate.address value.bytes.length) options.floatEpsilon = true
      then some (recordOf candidate
        (readable view.memory candidate.address value.bytes.length)) else none := by
  unfold survivor
  rw [holds_eq nonempty attached whole]
  dsimp only
  rw [compareValues_eq absolute nonempty whole]

/-! What a first scan leaves comes from its chunks. -/

section Origin

variable {cancel : Cancel} {hit : ScanResult}

theorem mem_addBatch {maxResults : Nat} {batch : List ScanResult} {scan : Scan}
    (inside : hit ∈ (addBatch maxResults batch scan).results) :
    hit ∈ scan.results ∨ hit ∈ batch := by
  unfold addBatch at inside
  split at inside
  · exact Or.inl inside
  · apply List.mem_append.mp
    dsimp only at inside
    split at inside
    · exact List.mem_of_mem_take inside
    · exact inside

theorem mem_scanChunks {number : Nat} {region : MemoryRegion} (offsets : List Nat) {scan : Scan}
    (inside : hit ∈ (scanChunks floats.toFloats view options mode value cancel number region
      offsets scan).results) :
    hit ∈ scan.results ∨ ∃ cancelled offset,
      hit ∈ scanChunk floats.toFloats view options mode value cancelled region offset := by
  induction offsets generalizing scan with
  | nil => exact Or.inl inside
  | cons offset rest ih =>
      unfold scanChunks at inside
      split at inside
      · exact Or.inl inside
      · rcases ih inside with grown | later
        · rcases mem_addBatch grown with old | new
          · exact Or.inl old
          · exact Or.inr ⟨_, offset, new⟩
        · exact Or.inr later

theorem mem_scanRegions {number : Nat} (regions : List MemoryRegion) {scan : Scan}
    (inside : hit ∈ (scanRegions floats.toFloats view options mode value cancel number regions
      scan).results) :
    hit ∈ scan.results ∨ ∃ cancelled region offset,
      hit ∈ scanChunk floats.toFloats view options mode value cancelled region offset := by
  induction regions generalizing number scan with
  | nil => exact Or.inl inside
  | cons region rest ih =>
      unfold scanRegions at inside
      split at inside
      · exact Or.inl inside
      · split at inside
        · exact ih inside
        · rcases ih inside with grown | later
          · rcases mem_scanChunks _ grown with old | ⟨cancelled, offset, new⟩
            · exact Or.inl old
            · exact Or.inr ⟨cancelled, region, offset, new⟩
          · exact Or.inr later

theorem mem_scanFirst
    (inside : hit ∈ (scanFirst floats.toFloats view options mode value cancel).1.results) :
    value.bytes ≠ [] ∧ ∃ cancelled region offset,
      hit ∈ scanChunk floats.toFloats view options mode value cancelled region offset := by
  unfold scanFirst at inside
  split at inside
  · contradiction
  · rename_i some_
    constructor
    · simpa using some_
    · rcases mem_scanRegions _ inside with none_ | origin
      · contradiction
      · exact origin

/-- A hit of a first scan passes a next scan for the same value, and keeps its record. -/
theorem hit_survives (absolute : Absolute mode) (wide : Wide mode value)
    (inside : hit ∈ (scanFirst floats.toFloats view options mode value cancel).1.results) :
    survivor floats view options mode value hit = some hit := by
  obtain ⟨nonempty, cancelled, region, offset, chunk⟩ := mem_scanFirst inside
  obtain ⟨_, first, length⟩ := scanChunk_hit chunk
  obtain ⟨size, buffer, i, answered, _, matched, made⟩ := mem_scanChunk chunk
  have whole : (readable view.memory hit.address value.bytes.length).length =
      value.bytes.length := by
    rw [← first]
    exact length
  have again : readable view.memory hit.address value.bytes.length =
      (buffer.drop i).take value.bytes.length := by
    rw [← first, made, hitAt]
  rw [absolute.filters, Bool.false_or,
    ← firstScanMatches_take floats.toFloats absolute.filters wide, ← again] at matched
  rw [survivor_eq absolute nonempty (readBytes_attached answered) whole, if_pos matched]
  have held : ((buffer.drop i).take value.bytes.length).isEmpty = false := by
    rw [← again, List.isEmpty_eq_false_iff]
    intro none_
    rw [none_, List.length_nil] at whole
    exact nonempty (List.eq_nil_of_length_eq_zero whole.symm)
  rw [again, made]
  simp only [recordOf, firstBytes, oldBytes, hitAt, held, Bool.false_eq_true, ↓reduceIte]

end Origin

/-- A next scan keeps all that a first scan for the same value found. -/
theorem scanNext_hits (absolute : Absolute mode) (wide : Wide mode value) (cancel : Cancel)
    {next : CancelFlag} (going : next.done = false) :
    let hits := (scanFirst floats.toFloats view options mode value cancel).1.results
    (scanNext floats view options mode value next hits).1 = hits := by
  intro hits
  have few : hits.length ≤ options.maxResults :=
    (@First.gathered _ floats ⟨view, options, mode, value, cancel⟩).2.1
  have each : ∀ hit ∈ hits, survivor floats view options mode value hit = some hit :=
    fun hit inside => hit_survives absolute wide inside
  have loop := @narrowLoop_eq _ floats view options mode value next going hits 0 []
    (by rw [List.length_nil]; omega)
  rw [List.nil_append, List.filterMap_congr each, List.filterMap_some] at loop
  simp only [scanNext, going, Bool.false_eq_true, ↓reduceIte]
  exact loop

/-- What a byte-granular first scan reports. -/
def reported (floats : Floats Epsilon) (view : TargetView) (options : ScanOptions Epsilon)
    (mode : ScanMode) (value : ScanValue) : List Nat :=
  (scanFirst floats view options mode value .never).1.results.map (·.address)

/-- What the naive scan asks of a place, with the bytes of the value alone. -/
theorem naiveMatch_iff (absolute : Absolute mode) (wide : Wide mode value)
    {region : MemoryRegion} {offset : Nat} :
    naiveMatch floats.toFloats view options mode value region offset = true ↔
      offset + value.bytes.length ≤ region.size ∧
        firstScanMatches floats.toFloats mode value
          (readable view.memory (region.base + offset) value.bytes.length)
          options.floatEpsilon = true := by
  have filters := absolute.filters
  have stride : strideOf mode value.type = 1 := by
    unfold strideOf
    rw [filters, if_neg Bool.false_ne_true]
  simp only [naiveMatch, stride, filters, Nat.one_dvd, decide_true, Bool.and_true, Bool.false_or,
    Bool.and_eq_true, decide_eq_true_eq]
  apply and_congr_right
  intro fits
  rw [← firstScanMatches_take floats.toFloats filters wide
      (readable view.memory (region.base + offset) (region.size - offset)),
    readable_take, Nat.min_eq_left (by omega)]

/-- Where the value fits, a first scan reports the address just when what stands there passes. -/
theorem mem_reported (absolute : Absolute mode) (wide : Wide mode value)
    (nonempty : value.bytes ≠ [])
    (whole : ∀ region ∈ view.regions, eligibleRegion region options = true →
      FullyReadable view region)
    (untruncated : (scanFirst floats.toFloats view options mode value .never).1.truncated = false)
    {address : Nat} (fits : FitsAt view options value address) :
    address ∈ reported floats.toFloats view options mode value ↔
      firstScanMatches floats.toFloats mode value
        (readable view.memory address value.bytes.length) options.floatEpsilon = true := by
  have collected := scanFirst_naiveScan floats.toFloats nonempty wide whole
  unfold reported
  rw [collected.all untruncated]
  simp only [naiveScan, naiveRegion, naiveHit, hitAt, List.mem_map, List.mem_flatMap,
    List.mem_filter, List.mem_range, naiveMatch_iff absolute wide]
  constructor
  · rintro ⟨_, ⟨region, _, offset, ⟨_, _, matched⟩, rfl⟩, rfl⟩
    exact matched
  · intro matched
    obtain ⟨region, listed, eligible, above, below⟩ := fits
    have positive := List.length_pos_of_ne_nil nonempty
    have place : region.base + (address - region.base) = address := by omega
    refine ⟨_, ⟨region, ⟨listed, eligible⟩, address - region.base, ⟨?_, ?_, ?_⟩, rfl⟩, place⟩
    · omega
    · omega
    · rw [place]
      exact matched

/-- Where the value fits, all of it can be read. -/
theorem FitsAt.readable {address : Nat} (fits : FitsAt view options value address)
    (whole : ∀ region ∈ view.regions, eligibleRegion region options = true →
      FullyReadable view region) :
    view.attached = true ∧
      (TargetView.readable view.memory address value.bytes.length).length =
        value.bytes.length := by
  obtain ⟨region, listed, eligible, above, below⟩ := fits
  obtain ⟨attached, mapped⟩ := whole region listed eligible
  refine ⟨attached, readable_length fun index inside => ?_⟩
  have place : region.base + (address - region.base + index) = address + index := by omega
  rw [← place]
  apply mapped
  omega

/-- What is kept of some addresses: those that pass, up to the limit. Under a limit of zero one
candidate is looked at all the same. -/
def kept (limit : Nat) (passes : Nat → Bool) (addresses : List Nat) : List Nat :=
  if limit = 0 then (addresses.take 1).filter passes else (addresses.filter passes).take limit

section Candidates

variable {first : ScanOptions Epsilon} {next : CancelFlag} {previous : List ScanResult}

/-- The survivors among candidates that fit are those that a first scan reports. -/
theorem survivors_reported (absolute : Absolute mode) (wide : Wide mode value)
    (nonempty : value.bytes ≠ []) (sameEpsilon : first.floatEpsilon = options.floatEpsilon)
    (whole : ∀ region ∈ view.regions, eligibleRegion region first = true →
      FullyReadable view region)
    (untruncated : (scanFirst floats.toFloats view first mode value .never).1.truncated = false)
    (fit : ∀ candidate ∈ previous, FitsAt view first value candidate.address) :
    (previous.filterMap (survivor floats view options mode value)).map (·.address) =
      (previous.map (·.address)).filter
        (· ∈ reported floats.toFloats view first mode value) := by
  have each : ∀ candidate ∈ previous, survivor floats view options mode value candidate =
      if decide (candidate.address ∈ reported floats.toFloats view first mode value) = true then
        some (recordOf candidate
          (TargetView.readable view.memory candidate.address value.bytes.length))
      else none := by
    intro candidate inside
    have fits := fit candidate inside
    obtain ⟨attached, length⟩ := fits.readable whole
    rw [survivor_eq absolute nonempty attached length, ← sameEpsilon]
    simp only [decide_eq_true_eq, mem_reported absolute wide nonempty whole untruncated fits]
  rw [List.filterMap_congr each, filterMap_if, List.filter_map, List.map_map]
  rfl

/-- A next scan keeps the candidates that a first scan for the same value reports. -/
theorem scanNext_reported (absolute : Absolute mode) (wide : Wide mode value)
    (going : next.done = false) (sameEpsilon : first.floatEpsilon = options.floatEpsilon)
    (whole : ∀ region ∈ view.regions, eligibleRegion region first = true →
      FullyReadable view region)
    (untruncated : (scanFirst floats.toFloats view first mode value .never).1.truncated = false)
    (fit : ∀ candidate ∈ previous, FitsAt view first value candidate.address) :
    (scanNext floats view options mode value next previous).1.map (·.address) =
      kept options.maxResults (· ∈ reported floats.toFloats view first mode value)
        (previous.map (·.address)) := by
  have loop : (scanNext floats view options mode value next previous).1 =
      narrowLoop floats view options mode value next 0 previous [] := by
    simp only [scanNext, going, Bool.false_eq_true, ↓reduceIte]
  rw [loop]
  by_cases empty : value.bytes = []
  · have gone : ∀ candidate ∈ previous,
        survivor floats view options mode value candidate = none :=
      fun _ _ => survivor_none fun _ _ _ _ _ => compareValues_empty absolute wide empty
    have nowhere : reported floats.toFloats view first mode value = [] := by
      unfold reported scanFirst
      rw [if_pos (by rw [empty]; rfl)]
      rfl
    rw [narrowLoop_none previous gone, nowhere]
    simp [kept]
  · have survivors (some_ : List ScanResult)
        (listed : ∀ candidate ∈ some_, candidate ∈ previous) :=
      @survivors_reported _ floats view options mode value first some_ absolute wide empty
        sameEpsilon whole untruncated fun candidate inside => fit candidate (listed candidate inside)
    unfold kept
    split
    · rename_i limit
      cases previous with
      | nil => rfl
      | cons candidate rest =>
          obtain ⟨attached, length⟩ := (fit candidate List.mem_cons_self).readable whole
          have held : (holds view value candidate).isSome = true := by
            rw [holds_eq empty attached length]
            rfl
          rw [narrowLoop_zero going limit, List.filter_cons_of_pos (by exact held),
            List.take_succ_cons, List.take_zero, survivors [candidate] (by simp)]
          rfl
    · rename_i limit
      rw [narrowLoop_take going _ (by rw [List.length_nil]; omega), List.nil_append, List.map_take,
        survivors previous fun _ inside => inside]
      rfl

/-- A value narrower than its type orders nothing. -/
theorem scanNext_narrow (narrow : ¬ Wide mode value) (nonempty : value.bytes ≠ [])
    (going : next.done = false) :
    (scanNext floats view options mode value next previous).1 = [] := by
  have gone : ∀ candidate ∈ previous,
      survivor floats view options mode value candidate = none := by
    intro candidate _
    apply survivor_none
    intro current _ _ _ length
    apply compareValues_narrow narrow
    rw [length, readWidth, if_pos (by simpa using nonempty)]
  simp only [scanNext, going, Bool.false_eq_true, ↓reduceIte]
  exact narrowLoop_none previous gone 0 []

end Candidates

/-- On memory that stands still, a next scan for the value of the first keeps all that the first
found. Of any other candidates where the value fits it keeps those that a first scan of their
regions reports, up to its limit. An ordering mode needs a value as wide as its type: with a
narrower one nothing is kept. -/
theorem scanNext_absolute (absolute : Absolute mode) {next : CancelFlag}
    (going : next.done = false) :
    (Wide mode value →
      (∀ cancel, let hits := (scanFirst floats.toFloats view options mode value cancel).1.results
        (scanNext floats view options mode value next hits).1 = hits) ∧
      ∀ first : ScanOptions Epsilon, first.floatEpsilon = options.floatEpsilon →
        (∀ region ∈ view.regions, eligibleRegion region first = true →
          FullyReadable view region) →
        (scanFirst floats.toFloats view first mode value .never).1.truncated = false →
        ∀ previous : List ScanResult,
          (∀ candidate ∈ previous, FitsAt view first value candidate.address) →
            (scanNext floats view options mode value next previous).1.map (·.address) =
              kept options.maxResults (· ∈ reported floats.toFloats view first mode value)
                (previous.map (·.address))) ∧
    (¬ Wide mode value → value.bytes ≠ [] → ∀ previous,
      (scanNext floats view options mode value next previous).1 = []) := by
  constructor
  · intro wide
    constructor
    · intro cancel
      exact scanNext_hits absolute wide cancel going
    · intro first sameEpsilon whole untruncated previous fit
      exact scanNext_reported absolute wide going sameEpsilon whole untruncated fit
  · intro narrow nonempty previous
    exact scanNext_narrow narrow nonempty going

/-- The byte 9. -/
def nine : ScanValue := { type := .uInt8, bytes := [9] }

def candidateAt (address : Nat) : ScanResult :=
  { address, previous := [0], current := [0], first := [0] }

theorem threeBytes_readable : ∀ region ∈ threeBytes.regions, FullyReadable threeBytes region := by
  intro region inside
  obtain rfl := List.mem_singleton.mp inside
  exact ⟨rfl, by decide⟩

/-- The two nines of three bytes stay, whether the first scan found them or somebody listed the
last two bytes. -/
theorem threeBytes_kept :
    let hits := (scanFirst noFloatSteps.toFloats threeBytes { floatEpsilon := () } .exact nine
      .never).1.results
    hits.map (·.address) = [0x10000, 0x10002] ∧
      (scanNext noFloatSteps threeBytes { floatEpsilon := () } .exact nine .never hits).1 = hits ∧
      (scanNext noFloatSteps threeBytes { floatEpsilon := () } .exact nine .never
        [candidateAt 0x10001, candidateAt 0x10002]).1.map (·.address) = [0x10002] := by
  have wide : Wide .exact nine := fun orders => by rcases orders with h | h | h <;> cases h
  have absolute := (@scanNext_absolute _ noFloatSteps threeBytes { floatEpsilon := () } .exact nine
    (Or.inl rfl) .never rfl).1 wide
  have some_ := absolute.2 { floatEpsilon := () } rfl
    (fun region inside _ => threeBytes_readable region inside) (by decide)
    [candidateAt 0x10001, candidateAt 0x10002] (fun candidate inside => by
      refine ⟨_, List.mem_cons_self, rfl, ?_⟩
      simp only [List.mem_cons, List.not_mem_nil, or_false] at inside
      rcases inside with rfl | rfl <;> decide)
  refine ⟨by decide, absolute.1 .never, ?_⟩
  rw [some_]
  decide

/-- Eight ones. -/
def eightOnes : TargetView where
  regions := [{ base := 0x10000, size := 8, readable := true }]
  memory := fun address => if 0x10000 ≤ address ∧ address < 0x10008 then some 1 else none

/-- Two regions of one byte each, side by side. -/
def sideBySide : TargetView where
  regions := [{ base := 0x10000, size := 1, readable := true },
    { base := 0x10001, size := 1, readable := true }]
  memory := fun address => if 0x10000 ≤ address ∧ address < 0x10002 then some 1 else none

/-- A next scan for a value narrower than its type drops all that the first scan found, a full
next scan drops what a first scan reports, and a value across the end of a region, though all
readable, is kept where no first scan reports it. -/
theorem scanNext_not_absolute :
    ((∀ region ∈ eightOnes.regions, FullyReadable eightOnes region) ∧
      let hits := (scanFirst noFloatSteps.toFloats eightOnes { floatEpsilon := () } .biggerThan
        zeroByte .never).1.results
      hits ≠ [] ∧
        (scanNext noFloatSteps eightOnes { floatEpsilon := () } .biggerThan zeroByte .never
          hits).1 = []) ∧
    (0x10002 ∈ reported noFloatSteps.toFloats threeBytes { floatEpsilon := () } .exact nine ∧
      (scanNext noFloatSteps threeBytes { maxResults := 1, floatEpsilon := () } .exact nine .never
        [candidateAt 0x10000, candidateAt 0x10002]).1.map (·.address) = [0x10000]) ∧
    (∀ region ∈ sideBySide.regions, FullyReadable sideBySide region) ∧
      reported noFloatSteps.toFloats sideBySide { floatEpsilon := () } .exact
        { type := .bytes, bytes := [1, 1] } = [] ∧
      (scanNext noFloatSteps sideBySide { floatEpsilon := () } .exact
        { type := .bytes, bytes := [1, 1] } .never [candidateAt 0x10000]).1.map (·.address) =
          [0x10000] := by
  refine ⟨⟨?_, by decide⟩, by decide, ?_, by decide⟩
  · intro region inside
    obtain rfl := List.mem_singleton.mp inside
    exact ⟨rfl, by decide⟩
  · intro region inside
    simp only [sideBySide, List.mem_cons, List.not_mem_nil, or_false] at inside
    rcases inside with rfl | rfl
    · exact ⟨rfl, by decide⟩
    · exact ⟨rfl, by decide⟩

end PointerLab.MemoryScanner
