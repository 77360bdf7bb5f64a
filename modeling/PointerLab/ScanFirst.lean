import PointerLab.MemoryScanner

set_option autoImplicit false

/- What a first scan finds. The chunked sweep is compared with a naive one that looks at
every offset of a region. -/
namespace PointerLab.MemoryScanner

open Domain Sweep TargetView

variable {Epsilon : Type} (floats : Floats Epsilon)

/-- Every byte of the region can be read. -/
def FullyReadable (view : TargetView) (region : MemoryRegion) : Prop :=
  view.attached = true ∧ ∀ index < region.size, view.memory (region.base + index) ≠ none

/-- The regions have no address in common. -/
def Disjoint (regions : List MemoryRegion) : Prop :=
  regions.Pairwise fun left right =>
    left.base + left.size ≤ right.base ∨ right.base + right.size ≤ left.base

section

variable (view : TargetView) (options : ScanOptions Epsilon) (mode : ScanMode) (value : ScanValue)

/-- The value fits into the region at the offset, and what the region holds from there on
passes: a snapshot takes every multiple of the type's size. -/
def naiveMatch (region : MemoryRegion) (offset : Nat) : Bool :=
  offset + value.bytes.length ≤ region.size && strideOf mode value.type ∣ offset &&
    (snapshot mode ||
      firstScanMatches floats mode value
        (readable view.memory (region.base + offset) (region.size - offset)) options.floatEpsilon)

def naiveHit (region : MemoryRegion) (offset : Nat) : ScanResult :=
  hitAt value (region.base + offset)
    (readable view.memory (region.base + offset) value.bytes.length)

def naiveRegion (region : MemoryRegion) : List ScanResult :=
  ((List.range region.size).filter (naiveMatch floats view options mode value region)).map
    (naiveHit view value region)

/-- The naive scan: region by region, every offset. -/
def naiveScan : List ScanResult :=
  (view.regions.filter fun region => eligibleRegion region options).flatMap
    (naiveRegion floats view options mode value)

/-- How many bytes the chunk that `offset` lies in shows from there on. -/
def shown (region : MemoryRegion) (offset : Nat) : Nat :=
  min ((offset / chunkSize + 1) * chunkSize + value.bytes.length - 1) region.size - offset

/-- The test that the chunked sweep makes. -/
def chunkMatch (region : MemoryRegion) (offset : Nat) : Bool :=
  offset + value.bytes.length ≤ region.size && strideOf mode value.type ∣ offset &&
    (snapshot mode ||
      firstScanMatches floats mode value
        (readable view.memory (region.base + offset) (shown value region offset))
        options.floatEpsilon)

end

theorem strideOf_pos (mode : ScanMode) (type : ValueType) : 0 < strideOf mode type := by
  unfold strideOf
  split <;> omega

theorem strideOf_dvd_chunkSize (mode : ScanMode) (type : ValueType) :
    strideOf mode type ∣ chunkSize := by
  unfold strideOf
  split
  · cases type <;> decide
  · exact Nat.one_dvd _

/-- What is left of the read of a chunk, written from either end. -/
theorem rest_of_read {chunk size width offset index : Nat} (nonempty : 0 < width)
    (inside : offset < size) :
    min (offset + chunk + width - 1) size - (offset + index) =
      min (min chunk (size - offset) + width - 1) (size - offset) - index := by
  omega

variable {view : TargetView} {options : ScanOptions Epsilon} {mode : ScanMode} {value : ScanValue}

/-- One chunk finds the hits that start in it. -/
theorem scanChunk_eq {region : MemoryRegion} {offset : Nat} (nonempty : 0 < value.bytes.length)
    (whole : FullyReadable view region) (aligned : chunkSize ∣ offset)
    (inside : offset < region.size) :
    scanChunk floats view options mode value (fun _ => false) region offset =
      ((List.range' offset (min chunkSize (region.size - offset))).filter
        (chunkMatch floats view options mode value region)).map (naiveHit view value region) := by
  generalize asked : min (min chunkSize (region.size - offset) + value.bytes.length - 1)
    (region.size - offset) = readSize
  generalize read : readable view.memory (region.base + offset) readSize = buffer
  have length : buffer.length = readSize := by
    rw [← read]
    refine readable_length fun index within => ?_
    rw [Nat.add_assoc]
    exact whole.2 _ (by omega)
  have tail (index : Nat) (within : index ≤ buffer.length) :
      buffer.drop index = readable view.memory (region.base + (offset + index))
        (readSize - index) := by
    rw [← read, readable_drop (by rw [read]; omega), Nat.add_assoc]
  have available (index : Nat) (inChunk : index < chunkSize) :
      shown value region (offset + index) = readSize - index := by
    obtain ⟨count, start⟩ := aligned
    have quotient : (offset + index) / chunkSize = count := by
      rw [start, Nat.mul_add_div (by decide), Nat.div_eq_of_lt inChunk, Nat.add_zero]
    have next : (count + 1) * chunkSize = offset + chunkSize := by
      rw [start, Nat.succ_mul, Nat.mul_comm]
    rw [shown, quotient, next, ← asked]
    exact rest_of_read nonempty inside
  have divides (index : Nat) : strideOf mode value.type ∣ offset + index ↔
      strideOf mode value.type ∣ index :=
    Nat.dvd_add_right (Nat.dvd_trans (strideOf_dvd_chunkSize mode value.type) aligned)
  -- The hits of the chunk, written with the index into its buffer.
  have hits : (steps (min (min chunkSize (region.size - offset))
        (buffer.length + 1 - value.bytes.length)) (strideOf mode value.type)).filter
        (fun index => snapshot mode ||
          firstScanMatches floats mode value (buffer.drop index) options.floatEpsilon) =
      (List.range (min chunkSize (region.size - offset))).filter
        (fun index => chunkMatch floats view options mode value region (offset + index)) := by
    refine eq_of_increasing ((steps_increasing (strideOf_pos _ _)).filter _)
      (List.pairwise_lt_range.filter _) fun index => ?_
    rw [List.mem_filter, List.mem_filter, mem_steps (strideOf_pos _ _), List.mem_range]
    simp only [chunkMatch, Bool.and_eq_true, decide_eq_true_eq, divides]
    constructor
    · rintro ⟨⟨within, stride⟩, matched⟩
      rw [tail index (by omega)] at matched
      rw [available index (by omega)]
      exact ⟨by omega, ⟨by omega, stride⟩, matched⟩
    · rintro ⟨within, ⟨fits, stride⟩, matched⟩
      rw [available index (by omega)] at matched
      rw [tail index (by omega)]
      exact ⟨⟨by omega, stride⟩, matched⟩
  have shifted : List.range' offset (min chunkSize (region.size - offset)) =
      (List.range (min chunkSize (region.size - offset))).map (offset + ·) := by
    simp only [List.range_eq_range', List.map_add_range', Nat.add_zero]
  rw [shifted, List.filter_map, List.map_map]
  simp only [Function.comp_def]
  rw [← hits]
  have answered : readBytes view (region.base + offset) readSize = .ok buffer := by
    have room := Nat.sub_pos_of_lt inside
    have wide : 0 < chunkSize := by decide
    rw [← read]
    apply readBytes_eq whole.1
    rw [read]
    omega
  unfold scanChunk
  simp only [asked, answered, Bool.not_false, takeWhile_true]
  by_cases short : buffer.length < value.bytes.length
  · have noRoom : min (min chunkSize (region.size - offset))
        (buffer.length + 1 - value.bytes.length) = 0 := by omega
    rw [if_pos short, noRoom, steps_zero (strideOf_pos _ _), List.filter_nil, List.map_nil]
  · have limit : buffer.length - value.bytes.length + 1 =
        buffer.length + 1 - value.bytes.length := by omega
    rw [if_neg short, limit]
    refine List.map_congr_left fun index inside => ?_
    have within := ((mem_steps (strideOf_pos _ _)).mp (List.mem_of_mem_filter inside)).1
    rw [naiveHit, hitAt, hitAt, tail index (by omega), readable_take, readable_take,
      Nat.add_assoc, Nat.min_self, Nat.min_eq_left (by omega)]

/-- The chunks of a region together. -/
theorem scanChunk_region {region : MemoryRegion} (nonempty : 0 < value.bytes.length)
    (whole : FullyReadable view region) :
    (steps region.size chunkSize).flatMap
        (scanChunk floats view options mode value (fun _ => false) region) =
      ((List.range region.size).filter (chunkMatch floats view options mode value region)).map
        (naiveHit view value region) := by
  rw [← gather (by decide : 0 < chunkSize), List.map_flatMap]
  refine List.flatMap_congr fun offset inside => ?_
  obtain ⟨within, aligned⟩ := (mem_steps (by decide)).mp inside
  exact scanChunk_eq floats nonempty whole aligned within

/-- What the scan holds once `found` has been met: its first `maxResults`, and whether
that was a stop. -/
structure Collected (maxResults : Nat) (found : List ScanResult) (scan : Scan) : Prop where
  results : scan.results = found.take maxResults
  truncated : scan.truncated = true ↔ found ≠ [] ∧ maxResults ≤ found.length

theorem Collected.nil (maxResults : Nat) : Collected maxResults [] {} := by
  constructor <;> simp

/-- A scan that has stopped holds what it would hold after more. -/
theorem Collected.stopped {maxResults : Nat} {found more : List ScanResult} {scan : Scan}
    (collected : Collected maxResults found scan) (stop : scan.truncated = true) :
    Collected maxResults (found ++ more) scan := by
  obtain ⟨nonempty, full⟩ := collected.truncated.mp stop
  constructor
  · rw [collected.results, List.take_append_of_le_length full]
  · rw [List.length_append]
    exact iff_of_true stop ⟨List.append_ne_nil_of_left_ne_nil nonempty _, by omega⟩

/-- A scan that goes on holds everything found. -/
theorem Collected.all {maxResults : Nat} {found : List ScanResult} {scan : Scan}
    (collected : Collected maxResults found scan) (going : scan.truncated = false) :
    scan.results = found := by
  rw [collected.results]
  by_cases empty : found = []
  · rw [empty, List.take_nil]
  · refine List.take_of_length_le (Nat.le_of_lt (Nat.lt_of_not_le fun full => ?_))
    rw [collected.truncated.mpr ⟨empty, full⟩] at going
    contradiction

theorem addBatch_collected {maxResults : Nat} {found batch : List ScanResult} {scan : Scan}
    (collected : Collected maxResults found scan) (going : scan.truncated = false) :
    Collected maxResults (found ++ batch) (addBatch maxResults batch scan) := by
  unfold addBatch
  by_cases none_ : batch = []
  · subst none_
    rw [List.append_nil]
    exact collected
  · have nonempty : found ++ batch ≠ [] := List.append_ne_nil_of_right_ne_nil found none_
    rw [if_neg (by simpa only [List.isEmpty_iff] using none_), collected.all going]
    by_cases full : maxResults ≤ (found ++ batch).length
    · rw [if_pos full]
      exact ⟨rfl, iff_of_true rfl ⟨nonempty, full⟩⟩
    · rw [if_neg full]
      constructor
      · exact (List.take_of_length_le (Nat.le_of_not_le full)).symm
      · exact iff_of_false (by rw [going]; decide) fun stop => full stop.2

theorem scanChunks_collected {number : Nat} {region : MemoryRegion} {found : List ScanResult}
    {scan : Scan} (offsets : List Nat) (collected : Collected options.maxResults found scan) :
    Collected options.maxResults
      (found ++ offsets.flatMap
        (scanChunk floats view options mode value (fun _ => false) region))
      (scanChunks floats view options mode value .never number region offsets scan) := by
  induction offsets generalizing found scan with
  | nil => simpa only [scanChunks, List.flatMap_nil, List.append_nil] using collected
  | cons offset rest ih =>
      unfold scanChunks
      cases stop : scan.truncated with
      | true =>
          rw [if_pos (by simp)]
          exact collected.stopped stop
      | false =>
          rw [if_neg (by simp [Cancel.never]), List.flatMap_cons, ← List.append_assoc]
          exact ih (addBatch_collected collected stop)

theorem scanRegions_collected {number : Nat} {found : List ScanResult} {scan : Scan}
    (regions : List MemoryRegion) (collected : Collected options.maxResults found scan) :
    Collected options.maxResults
      (found ++ (regions.filter fun region => eligibleRegion region options).flatMap fun region =>
        (steps region.size chunkSize).flatMap
          (scanChunk floats view options mode value (fun _ => false) region))
      (scanRegions floats view options mode value .never number regions scan) := by
  induction regions generalizing number found scan with
  | nil => simpa only [scanRegions, List.filter_nil, List.flatMap_nil, List.append_nil]
      using collected
  | cons region rest ih =>
      unfold scanRegions
      cases stop : scan.truncated with
      | true =>
          rw [if_pos (by simp)]
          exact collected.stopped stop
      | false =>
          rw [if_neg (by simp [Cancel.never])]
          cases eligible : eligibleRegion region options with
          | false =>
              rw [if_pos (by simp), List.filter_cons_of_neg (by simp [eligible])]
              exact ih collected
          | true =>
              rw [if_neg (by simp),
                List.filter_cons_of_pos (p := fun region => eligibleRegion region options) eligible,
                List.flatMap_cons, ← List.append_assoc]
              exact ih (scanChunks_collected floats _ collected)

/-- An uncancelled first scan of readable regions, whatever the value. -/
theorem scanFirst_collected (nonempty : value.bytes ≠ [])
    (whole : ∀ region ∈ view.regions, eligibleRegion region options = true →
      FullyReadable view region) :
    Collected options.maxResults
      ((view.regions.filter fun region => eligibleRegion region options).flatMap fun region =>
        ((List.range region.size).filter
          (chunkMatch floats view options mode value region)).map (naiveHit view value region))
      (scanFirst floats view options mode value .never).1 := by
  have regions := @scanRegions_collected _ floats view options mode value 0 _ _ view.regions
    (Collected.nil options.maxResults)
  rw [List.nil_append] at regions
  have listed : ((view.regions.filter fun region => eligibleRegion region options).flatMap
      fun region => (steps region.size chunkSize).flatMap
        (scanChunk floats view options mode value (fun _ => false) region)) =
      (view.regions.filter fun region => eligibleRegion region options).flatMap fun region =>
        ((List.range region.size).filter
          (chunkMatch floats view options mode value region)).map (naiveHit view value region) := by
    refine List.flatMap_congr fun region inside => ?_
    obtain ⟨listed, eligible⟩ := List.mem_filter.mp inside
    exact scanChunk_region floats (List.length_pos_of_ne_nil nonempty)
      (whole region listed eligible)
  rw [listed] at regions
  unfold scanFirst
  rw [if_neg (by simpa only [List.isEmpty_iff] using nonempty)]
  exact regions

/-- A value as wide as its type is compared the same from any chunk. -/
theorem chunkMatch_eq_naiveMatch {region : MemoryRegion} {offset : Nat}
    (nonempty : 0 < value.bytes.length)
    (wide : Orders mode → valueTypeSize value.type ≤ value.bytes.length) :
    chunkMatch floats view options mode value region offset =
      naiveMatch floats view options mode value region offset := by
  unfold chunkMatch naiveMatch
  by_cases fits : offset + value.bytes.length ≤ region.size
  · cases filters : snapshot mode with
    | true => simp only [Bool.true_or]
    | false =>
        have ahead : offset < (offset / chunkSize + 1) * chunkSize := by
          rw [Nat.succ_mul]
          exact Nat.lt_div_mul_add (by decide)
        have room : value.bytes.length ≤ shown value region offset := by
          unfold shown
          generalize (offset / chunkSize + 1) * chunkSize = next at ahead ⊢
          omega
        rw [← firstScanMatches_take floats filters wide, readable_take, Nat.min_eq_left room,
          ← firstScanMatches_take floats filters wide (readable view.memory (region.base + offset)
            (region.size - offset)), readable_take, Nat.min_eq_left (by omega)]
  · simp only [fits, decide_false, Bool.false_and]

theorem naiveRegion_increasing (region : MemoryRegion) :
    ((naiveRegion floats view options mode value region).map (·.address)).Pairwise (· < ·) := by
  rw [naiveRegion, List.map_map, List.pairwise_map]
  exact (List.pairwise_lt_range.filter _).imp fun less => Nat.add_lt_add_left less region.base

theorem naiveScan_nodup (disjoint : Disjoint view.regions) :
    ((naiveScan floats view options mode value).map (·.address)).Nodup := by
  have inside {region : MemoryRegion} {address : Nat}
      (hit : address ∈ (naiveRegion floats view options mode value region).map (·.address)) :
      region.base ≤ address ∧ address < region.base + region.size := by
    simp only [naiveRegion, List.mem_map, List.mem_filter, List.mem_range] at hit
    obtain ⟨_, ⟨offset, ⟨within, _⟩, rfl⟩, rfl⟩ := hit
    simp only [naiveHit, hitAt]
    omega
  rw [naiveScan, List.map_flatMap, List.Nodup, List.pairwise_flatMap]
  constructor
  · intro region _
    exact (naiveRegion_increasing floats region).imp Nat.ne_of_lt
  · refine (disjoint.filter _).imp fun {left right} apart => ?_
    intro x inLeft y inRight
    have first := inside inLeft
    have second := inside inRight
    omega

/-- What an uncancelled first scan holds at its end. -/
theorem scanFirst_naiveScan (nonempty : value.bytes ≠ [])
    (wide : Orders mode → valueTypeSize value.type ≤ value.bytes.length)
    (whole : ∀ region ∈ view.regions, eligibleRegion region options = true →
      FullyReadable view region) :
    Collected options.maxResults (naiveScan floats view options mode value)
      (scanFirst floats view options mode value .never).1 := by
  have collected := @scanFirst_collected _ floats view options mode value nonempty whole
  have same : ((view.regions.filter fun region => eligibleRegion region options).flatMap
      fun region => ((List.range region.size).filter
        (chunkMatch floats view options mode value region)).map (naiveHit view value region)) =
      naiveScan floats view options mode value := by
    refine List.flatMap_congr fun region _ => ?_
    rw [naiveRegion]
    congr 1
    exact List.filter_congr fun offset _ =>
      chunkMatch_eq_naiveMatch floats (List.length_pos_of_ne_nil nonempty) wide
  rw [same] at collected
  exact collected

/-- A first scan that nobody cancels returns the first `maxResults` hits of the naive scan, all
of them when the limit does not stop it. Within a region the addresses increase, and no address
comes twice when no two regions overlap. An ordering mode needs a value as wide as its type. -/
theorem scanFirst_naive (nonempty : value.bytes ≠ [])
    (wide : Orders mode → valueTypeSize value.type ≤ value.bytes.length)
    (whole : ∀ region ∈ view.regions, eligibleRegion region options = true →
      FullyReadable view region) :
    let scan := (scanFirst floats view options mode value .never).1
    scan.results = (naiveScan floats view options mode value).take options.maxResults ∧
      (scan.truncated = false → scan.results = naiveScan floats view options mode value) ∧
      (∀ region, ((naiveRegion floats view options mode value region).map (·.address)).Pairwise
        (· < ·)) ∧
      (Disjoint view.regions → (scan.results.map (·.address)).Nodup) := by
  intro scan
  have collected := @scanFirst_naiveScan _ floats view options mode value nonempty wide whole
  refine ⟨collected.results, collected.all, naiveRegion_increasing floats, fun disjoint => ?_⟩
  rw [collected.results, List.map_take]
  exact (naiveScan_nodup floats disjoint).sublist (List.take_sublist _ _)

/-- A region of three bytes. -/
def threeBytes : TargetView where
  regions := [{ base := 0x10000, size := 3, readable := true }]
  memory := fun address =>
    if address = 0x10001 then some 7
    else if 0x10000 ≤ address ∧ address < 0x10003 then some 9
    else none

theorem threeBytes_naive :
    (scanFirst noFloats threeBytes { floatEpsilon := () } .exact { type := .uInt8, bytes := [9] }
      .never).1.results.map (·.address) = [0x10000, 0x10002] := by
  have naive := (@scanFirst_naive _ noFloats threeBytes { floatEpsilon := () } .exact
    { type := .uInt8, bytes := [9] } (by decide)
    (fun orders => by rcases orders with h | h | h <;> cases h)
    (fun region inside _ => by
      obtain rfl := List.mem_singleton.mp inside
      exact ⟨rfl, by decide⟩)).1
  rw [naive]
  decide

/-- A region of ones, a little longer than a chunk. -/
def onesRegion : MemoryRegion := { base := 0x10000, size := 0x100008, readable := true }

def onesView : TargetView where
  regions := [onesRegion]
  memory := fun address => if 0x10000 ≤ address ∧ address < 0x200000 then some 1 else none

theorem onesView_readable : ∀ region ∈ onesView.regions, FullyReadable onesView region := by
  intro region inside
  obtain rfl := List.mem_singleton.mp inside
  refine ⟨rfl, fun index within hole => ?_⟩
  have mapped : 0x10000 ≤ onesRegion.base + index ∧ onesRegion.base + index < 0x200000 := by
    simp only [onesRegion] at within ⊢
    omega
  simp only [onesView, if_pos mapped, reduceCtorEq] at hole

/-- Bigger than zero, with a value of one byte for a type of four. -/
def zeroByte : ScanValue := { type := .int32, bytes := [0] }

def roomy : ScanOptions Unit := { maxResults := 0x200000, floatEpsilon := () }

/-- The same byte of memory, listed as two regions. -/
def twiceView : TargetView where
  regions := [{ base := 0x10000, size := 1, readable := true },
    { base := 0x10000, size := 1, readable := true }]
  memory := fun address => if address = 0x10000 then some 9 else none

/-- A value narrower than its type is not compared in the last bytes of a chunk, and a byte
listed twice is found twice. -/
theorem scanFirst_not_naive :
    ((∀ region ∈ onesView.regions, FullyReadable onesView region) ∧
      (scanFirst noFloats onesView roomy .biggerThan zeroByte .never).1.truncated = false ∧
      naiveMatch noFloats onesView roomy .biggerThan zeroByte onesRegion 0xFFFFF = true ∧
      0x10FFFF ∉ (scanFirst noFloats onesView roomy .biggerThan zeroByte .never).1.results.map
        (·.address)) ∧
    (∀ region ∈ twiceView.regions, FullyReadable twiceView region) ∧
      (scanFirst noFloats twiceView { floatEpsilon := () } .exact { type := .uInt8, bytes := [9] }
        .never).1.results.map (·.address) = [0x10000, 0x10000] := by
  have collected := @scanFirst_collected _ noFloats onesView roomy .biggerThan zeroByte (by decide)
    (fun region inside _ => onesView_readable region inside)
  have listed : (onesView.regions.filter fun region => eligibleRegion region roomy) =
      [onesRegion] := rfl
  rw [listed, List.flatMap_singleton] at collected
  refine ⟨⟨onesView_readable, ?_, by decide, ?_⟩, ?_, by decide⟩
  · by_contra stop
    have full := (collected.truncated.mp (by simpa using stop)).2
    have few := List.length_filter_le
      (chunkMatch noFloats onesView roomy .biggerThan zeroByte onesRegion)
      (List.range onesRegion.size)
    simp only [List.length_map, List.length_range, onesRegion, roomy] at full few
    omega
  · rw [collected.results]
    intro hit
    simp only [List.map_take] at hit
    have found := List.mem_of_mem_take hit
    simp only [List.mem_map, List.mem_filter] at found
    obtain ⟨_, ⟨offset, ⟨_, matched⟩, rfl⟩, place⟩ := found
    have last : offset = 0xFFFFF := Nat.add_left_cancel (n := 0x10000) place
    have unmatched : chunkMatch noFloats onesView roomy .biggerThan zeroByte onesRegion 0xFFFFF =
        false := by decide
    rw [last, unmatched] at matched
    exact Bool.false_ne_true matched
  · intro region inside
    have same : region = { base := 0x10000, size := 1, readable := true } := by
      simpa [twiceView] using inside
    rw [same]
    exact ⟨rfl, by decide⟩

end PointerLab.MemoryScanner
