import PointerLab.NextScan
import PointerLab.Runs

set_option autoImplicit false

/- What a sequence of next scans does to the candidates of a first scan: the bytes of the
first scan stay with a candidate, and the width that is read follows the last value that
had one. -/
namespace PointerLab.MemoryScanner

open Domain Sweep TargetView Runs

variable {Epsilon : Type} (floats : FloatSteps Epsilon)

/-- A first scan, and the target it sees. -/
structure First (Epsilon : Type) where
  view : TargetView
  options : ScanOptions Epsilon
  mode : ScanMode
  value : ScanValue
  cancel : Cancel

def First.hits (first : First Epsilon) : List ScanResult :=
  (scanFirst floats.toFloats first.view first.options first.mode first.value
    first.cancel).1.results

/-- A next scan, and what it sees of the target by then. -/
structure Next where
  view : TargetView
  mode : ScanMode
  value : ScanValue
  cancel : CancelFlag

/-- One next scan of a job. -/
def narrow (options : ScanOptions Epsilon) (results : List ScanResult) (scan : Next) :
    List ScanResult :=
  (scanNext floats scan.view options scan.mode scan.value scan.cancel results).1

/-- A next scan, and the options that are set for it. -/
structure Rescan (Epsilon : Type) extends Next where
  options : ScanOptions Epsilon

def rescan (results : List ScanResult) (scan : Rescan Epsilon) : List ScanResult :=
  narrow floats scan.options results scan.toNext

/-- How wide the candidates are after a scan: as wide as its value, where it has a width. -/
def widthAfter (width : Nat) (scan : Rescan Epsilon) : Nat :=
  if scan.cancel.done || scan.value.bytes.isEmpty then width else scan.value.bytes.length

/-- The target holds the bytes of the first scan again. -/
def stillFirst (view : TargetView) (candidate : ScanResult) : Bool :=
  match readBytes view candidate.address candidate.first.length with
  | .error _ => false
  | .ok bytes => bytes == candidate.first

/-- All bytes that the first scan recorded can be read. -/
def firstReadable (view : TargetView) (candidate : ScanResult) : Bool :=
  match readBytes view candidate.address candidate.first.length with
  | .error _ => false
  | .ok bytes => bytes.length == candidate.first.length

/-- The limit of the scan cuts off no candidate that holds the bytes of the first scan. The scan
stops when it has kept as many as the limit says, with a limit of zero at the first that it can
read. -/
def Room (results : List ScanResult) (scan : Rescan Epsilon) : Prop :=
  if scan.options.maxResults = 0 then
    ∀ candidate ∈ (results.filter (firstReadable scan.view)).tail,
      stillFirst scan.view candidate = false
  else (results.filter (stillFirst scan.view)).length ≤ scan.options.maxResults

instance {results : List ScanResult} {scan : Rescan Epsilon} : Decidable (Room results scan) :=
  inferInstanceAs (Decidable (ite _ _ _))

/-- The scan keeps exactly the candidates that hold the bytes of the first scan again. -/
def KeepsFirst (results : List ScanResult) (scan : Rescan Epsilon) : Prop :=
  (rescan floats results scan).map (fun entry => (entry.address, entry.first)) =
    (results.filter (stillFirst scan.view)).map fun entry => (entry.address, entry.first)

/-- A hit records what was read where it is. -/
structure IsHit (view : TargetView) (size : Nat) (hit : ScanResult) : Prop where
  current : hit.current = hit.first
  first : hit.first = readable view.memory hit.address size
  length : hit.first.length = size

variable {floats} {view : TargetView} {options : ScanOptions Epsilon} {mode : ScanMode}
  {value : ScanValue} {cancel : Cancel}

theorem readBytes_ok {address size : Nat} {bytes : List UInt8}
    (answered : readBytes view address size = .ok bytes) :
    bytes = readable view.memory address size := by
  unfold readBytes at answered
  split at answered
  · contradiction
  · dsimp only at answered
    split at answered
    · contradiction
    · exact (Except.ok.inj answered).symm

theorem readBytes_attached {address size : Nat} {bytes : List UInt8}
    (answered : readBytes view address size = .ok bytes) : view.attached = true := by
  unfold readBytes at answered
  split at answered
  · contradiction
  · rename_i attached
    simpa using attached

/-- Where a hit comes from: a place of a buffer that is read, with room for the value there. -/
theorem mem_scanChunk {cancelled : Nat → Bool} {region : MemoryRegion} {offset : Nat}
    {hit : ScanResult}
    (inside : hit ∈ scanChunk floats.toFloats view options mode value cancelled region offset) :
    ∃ size buffer i, readBytes view (region.base + offset) size = .ok buffer ∧
      i + value.bytes.length ≤ buffer.length ∧
      (snapshot mode || firstScanMatches floats.toFloats mode value (buffer.drop i)
        options.floatEpsilon) = true ∧
      hit = hitAt value (region.base + offset + i) (buffer.drop i) := by
  unfold scanChunk at inside
  dsimp only at inside
  split at inside
  · contradiction
  · rename_i buffer answered
    split at inside
    · contradiction
    · obtain ⟨i, inSteps, rfl⟩ := List.mem_map.mp inside
      obtain ⟨candidate, matched⟩ := List.mem_filter.mp inSteps
      have within := ((mem_steps (by unfold strideOf; split <;> omega)).mp
        (List.takeWhile_prefix _ |>.subset candidate)).1
      exact ⟨_, buffer, i, answered, by omega, matched, rfl⟩

theorem scanChunk_hit {cancelled : Nat → Bool} {region : MemoryRegion} {offset : Nat}
    {hit : ScanResult}
    (inside : hit ∈ scanChunk floats.toFloats view options mode value cancelled region offset) :
    IsHit view value.bytes.length hit := by
  obtain ⟨size, buffer, i, answered, fits, _, rfl⟩ := mem_scanChunk inside
  have read := readBytes_ok answered
  have upper := readable_length_le view.memory (region.base + offset) size
  have bytes : (buffer.drop i).take value.bytes.length =
      readable view.memory (region.base + offset + i) value.bytes.length := by
    rw [read] at fits ⊢
    rw [readable_drop (by omega), readable_take, Nat.min_eq_left (by omega)]
  refine ⟨rfl, bytes, ?_⟩
  show ((buffer.drop i).take value.bytes.length).length = value.bytes.length
  rw [List.length_take, List.length_drop]
  omega

/-- What a first scan has gathered so far. -/
structure Gathered (view : TargetView) (size maxResults : Nat) (scan : Scan) : Prop where
  hits : ∀ hit ∈ scan.results, IsHit view size hit
  few : scan.results.length ≤ maxResults

theorem Gathered.addBatch {size maxResults : Nat} {scan : Scan} {batch : List ScanResult}
    (gathered : Gathered view size maxResults scan) (hits : ∀ hit ∈ batch, IsHit view size hit) :
    Gathered view size maxResults (addBatch maxResults batch scan) := by
  have all : ∀ hit ∈ scan.results ++ batch, IsHit view size hit := by
    intro hit inside
    exact (List.mem_append.mp inside).elim (gathered.hits hit) (hits hit)
  unfold MemoryScanner.addBatch
  split
  · exact gathered
  · dsimp only
    split
    · refine ⟨fun hit inside => all hit (List.mem_of_mem_take inside), ?_⟩
      apply List.length_take_le
    · rename_i room
      refine ⟨all, ?_⟩
      show (scan.results ++ batch).length ≤ maxResults
      omega

theorem Gathered.chunks {number : Nat} {region : MemoryRegion} {scan : Scan} (offsets : List Nat)
    (gathered : Gathered view value.bytes.length options.maxResults scan) :
    Gathered view value.bytes.length options.maxResults
      (scanChunks floats.toFloats view options mode value cancel number region offsets scan) := by
  induction offsets generalizing scan with
  | nil => exact gathered
  | cons offset rest ih =>
      unfold scanChunks
      split
      · exact gathered
      · apply ih
        apply gathered.addBatch
        exact fun hit inside => scanChunk_hit inside

theorem Gathered.regions {number : Nat} {scan : Scan} (regions : List MemoryRegion)
    (gathered : Gathered view value.bytes.length options.maxResults scan) :
    Gathered view value.bytes.length options.maxResults
      (scanRegions floats.toFloats view options mode value cancel number regions scan) := by
  induction regions generalizing number scan with
  | nil => exact gathered
  | cons region rest ih =>
      unfold scanRegions
      split
      · exact gathered
      · split
        · exact ih gathered
        · exact ih (gathered.chunks _)

/-- Whatever cuts a first scan short, its hits record what it read. -/
theorem First.gathered (first : First Epsilon) :
    (∀ hit ∈ first.hits floats, IsHit first.view first.value.bytes.length hit) ∧
      (first.hits floats).length ≤ first.options.maxResults ∧
      (first.value.bytes = [] → first.hits floats = []) := by
  have start : Gathered first.view first.value.bytes.length first.options.maxResults {} :=
    ⟨fun hit inside => absurd inside List.not_mem_nil, Nat.zero_le _⟩
  unfold First.hits scanFirst
  split
  · exact ⟨start.hits, start.few, fun _ => rfl⟩
  · rename_i some_
    have gathered : Gathered first.view first.value.bytes.length first.options.maxResults
        (scanRegions floats.toFloats first.view first.options first.mode first.value first.cancel 0
          first.view.regions {}) := start.regions _
    refine ⟨gathered.hits, gathered.few, fun empty => ?_⟩
    rw [empty] at some_
    exact absurd rfl some_

/-- The candidates of a job: what they hold, and what they held on the first scan. -/
structure Tracked (hits : List ScanResult) (size width : Nat) (results : List ScanResult) :
    Prop where
  wide : results ≠ [] → 0 < size ∧ 0 < width
  current : ∀ entry ∈ results, entry.current.length = width
  first : ∀ entry ∈ results, entry.first.length = size ∧
    ∃ hit ∈ hits, hit.address = entry.address ∧ hit.first = entry.first

section Tracked

variable {hits results : List ScanResult} {size width : Nat}

theorem Tracked.start (first : First Epsilon) :
    Tracked (first.hits floats) first.value.bytes.length first.value.bytes.length
      (first.hits floats) := by
  obtain ⟨isHit, _, empty⟩ := @First.gathered _ floats first
  refine ⟨fun some_ => ?_, fun entry inside => ?_, fun entry inside => ?_⟩
  · have nonempty : first.value.bytes ≠ [] := fun none_ => some_ (empty none_)
    have positive := List.length_pos_of_ne_nil nonempty
    omega
  · rw [(isHit entry inside).current]
    exact (isHit entry inside).length
  · exact ⟨(isHit entry inside).length, entry, inside, rfl, rfl⟩

theorem Tracked.oldBytes_eq (tracked : Tracked hits size width results) {entry : ScanResult}
    (inside : entry ∈ results) : oldBytes entry = entry.current := by
  have wide := (tracked.wide (List.ne_nil_of_mem inside)).2
  have length := tracked.current entry inside
  unfold oldBytes
  split
  · rename_i empty
    rw [List.isEmpty_iff.mp empty, List.length_nil] at length
    omega
  · rfl

theorem Tracked.firstBytes_eq (tracked : Tracked hits size width results)
    {entry : ScanResult} (inside : entry ∈ results) : firstBytes entry = entry.first := by
  have wide := (tracked.wide (List.ne_nil_of_mem inside)).1
  have length := (tracked.first entry inside).1
  unfold firstBytes
  split
  · rename_i empty
    rw [List.isEmpty_iff.mp empty, List.length_nil] at length
    omega
  · rfl

/-- Every candidate is read with the width that it then has. -/
theorem Tracked.readWidth_eq (tracked : Tracked hits size width results)
    {entry : ScanResult} (inside : entry ∈ results) {scan : Rescan Epsilon}
    (going : scan.cancel.done = false) : readWidth scan.value entry = widthAfter width scan := by
  unfold readWidth widthAfter
  rw [going, Bool.false_or, tracked.oldBytes_eq inside, tracked.current entry inside]
  cases scan.value.bytes <;> rfl

theorem survivor_some {candidate entry : ScanResult}
    (kept : survivor floats view options mode value candidate = some entry) :
    ∃ current, holds view value candidate = some current ∧ entry = recordOf candidate current := by
  unfold survivor at kept
  split at kept
  · contradiction
  · rename_i current held
    split at kept
    · exact ⟨current, held, (Option.some.inj kept).symm⟩
    · contradiction

/-- One next scan. -/
theorem Tracked.step (tracked : Tracked hits size width results) (scan : Rescan Epsilon) :
    Tracked hits size (widthAfter width scan) (rescan floats results scan) := by
  cases going : scan.cancel.done with
  | true =>
      have kept : rescan floats results scan = results := by
        simp only [rescan, narrow, scanNext, going, ↓reduceIte]
      have same : widthAfter width scan = width := by
        simp only [widthAfter, going, Bool.true_or, ↓reduceIte]
      rw [kept, same]
      exact tracked
  | false =>
      have narrowed : rescan floats results scan =
          narrowLoop floats scan.view scan.options scan.mode scan.value scan.cancel 0 results [] := by
        simp only [rescan, narrow, scanNext, going, Bool.false_eq_true, ↓reduceIte]
      have origin : ∀ entry ∈ rescan floats results scan,
          ∃ candidate ∈ results, ∃ current, holds scan.view scan.value candidate = some current ∧
            entry = recordOf candidate current := by
        intro entry inside
        rw [narrowed] at inside
        rcases mem_narrowLoop results inside with old | ⟨candidate, listed, kept⟩
        · contradiction
        · exact ⟨candidate, listed, survivor_some kept⟩
      refine ⟨fun some_ => ?_, fun entry inside => ?_, fun entry inside => ?_⟩
      · obtain ⟨entry, inside⟩ := List.exists_mem_of_ne_nil _ some_
        obtain ⟨candidate, listed, current, held, _⟩ := origin entry inside
        obtain ⟨length, nonempty, _⟩ := holds_some held
        rw [tracked.readWidth_eq listed going] at length
        have positive := List.length_pos_of_ne_nil nonempty
        exact ⟨(tracked.wide (List.ne_nil_of_mem listed)).1, by omega⟩
      · obtain ⟨candidate, listed, current, held, rfl⟩ := origin entry inside
        have length := (holds_some held).1
        rw [tracked.readWidth_eq listed going] at length
        exact length
      · obtain ⟨candidate, listed, current, held, rfl⟩ := origin entry inside
        have first : (recordOf candidate current).first = candidate.first :=
          tracked.firstBytes_eq listed
        rw [first]
        exact tracked.first candidate listed

/-- Every sequence of next scans. -/
theorem Tracked.run (tracked : Tracked hits size width results) (scans : List (Rescan Epsilon)) :
    Tracked hits size (Runs.run widthAfter width scans)
      (Runs.run (rescan floats) results scans) := by
  induction scans generalizing width results with
  | nil => exact tracked
  | cons scan rest ih => exact ih (tracked.step scan)

/-- A scan for the first value keeps a candidate that is read with the width of its first bytes
just when the target holds them again, and any other never. -/
theorem Tracked.survivor_eq (tracked : Tracked hits size width results) {entry : ScanResult}
    (inside : entry ∈ results) {scan : Rescan Epsilon} (going : scan.cancel.done = false) :
    survivor floats scan.view options .sameAsFirst scan.value entry =
      if widthAfter width scan = size ∧ stillFirst scan.view entry = true then
        some (recordOf entry entry.first) else none := by
  have read := tracked.readWidth_eq inside going
  have length := (tracked.first entry inside).1
  have wide := (tracked.wide (List.ne_nil_of_mem inside)).1
  cases held : holds scan.view scan.value entry with
  | none =>
      rw [survivor_unread held, if_neg]
      rintro ⟨same, still⟩
      have nonzero : (size == 0) = false := beq_eq_false_iff_ne.mpr (by omega)
      simp only [holds, read, same, nonzero, Bool.false_eq_true, ↓reduceIte] at held
      simp only [stillFirst, length] at still
      cases answered : readBytes scan.view entry.address size with
      | error _ =>
          rw [answered] at still
          contradiction
      | ok bytes =>
          simp only [answered, beq_iff_eq] at still held
          rw [still, length, bne_self_eq_false] at held
          contradiction
  | some current =>
      obtain ⟨currentLength, _, answered⟩ := holds_some held
      have kept : survivor floats scan.view options .sameAsFirst scan.value entry =
          if (current == entry.first) = true then some (recordOf entry current) else none := by
        simp only [survivor, held, compareValues, tracked.firstBytes_eq inside]
      rw [kept]
      by_cases same : current = entry.first
      · rw [← same, currentLength, read] at length
        have still : stillFirst scan.view entry = true := by
          simp only [stillFirst, ← same, currentLength, answered, beq_self_eq_true]
        rw [if_pos (beq_iff_eq.mpr same), if_pos ⟨length, still⟩, same]
      · rw [if_neg (fun equal => same (beq_iff_eq.mp equal)), if_neg]
        rintro ⟨sameWidth, still⟩
        rw [read, sameWidth] at answered
        simp only [stillFirst, length, answered, beq_iff_eq] at still
        exact same still

/-- Where the widths agree, a candidate can be read just when its first bytes can. -/
theorem Tracked.holds_isSome (tracked : Tracked hits size width results) {entry : ScanResult}
    (inside : entry ∈ results) {scan : Rescan Epsilon} (going : scan.cancel.done = false)
    (same : widthAfter width scan = size) :
    (holds scan.view scan.value entry).isSome = firstReadable scan.view entry := by
  have read := tracked.readWidth_eq inside going
  have length := (tracked.first entry inside).1
  have wide := (tracked.wide (List.ne_nil_of_mem inside)).1
  have nonzero : (size == 0) = false := beq_eq_false_iff_ne.mpr (by omega)
  simp only [holds, firstReadable, read, same, length, nonzero, Bool.false_eq_true, ↓reduceIte]
  cases readBytes scan.view entry.address size with
  | error _ => rfl
  | ok bytes =>
      dsimp only
      by_cases whole : bytes.length = size
      · rw [whole, bne_self_eq_false, if_neg Bool.false_ne_true, beq_self_eq_true]
        rfl
      · rw [if_pos (bne_iff_ne.mpr whole), beq_eq_false_iff_ne.mpr whole]
        rfl

theorem stillFirst_readable {candidate : ScanResult} (still : stillFirst view candidate = true) :
    firstReadable view candidate = true := by
  unfold stillFirst at still
  unfold firstReadable
  split at still
  · contradiction
  · rename_i bytes answered
    exact beq_iff_eq.mpr (congrArg List.length (beq_iff_eq.mp still))

/-- The candidates that a scan for the first value keeps, where the widths agree. -/
def keptFirst (results : List ScanResult) (scan : Rescan Epsilon) : List ScanResult :=
  if scan.options.maxResults = 0 then
    ((results.filter (firstReadable scan.view)).take 1).filter (stillFirst scan.view)
  else (results.filter (stillFirst scan.view)).take scan.options.maxResults

/-- Those that it cuts off. -/
def cutFirst (results : List ScanResult) (scan : Rescan Epsilon) : List ScanResult :=
  if scan.options.maxResults = 0 then
    (results.filter (firstReadable scan.view)).tail.filter (stillFirst scan.view)
  else (results.filter (stillFirst scan.view)).drop scan.options.maxResults

theorem keptFirst_append_cutFirst (results : List ScanResult) (scan : Rescan Epsilon) :
    keptFirst results scan ++ cutFirst results scan = results.filter (stillFirst scan.view) := by
  unfold keptFirst cutFirst
  split
  · rw [← List.filter_append, ← List.drop_one, List.take_append_drop, List.filter_filter]
    congr 1
    funext candidate
    cases still : stillFirst scan.view candidate with
    | false => rfl
    | true => exact stillFirst_readable still
  · exact List.take_append_drop _ _

theorem room_iff {scan : Rescan Epsilon} : Room results scan ↔ cutFirst results scan = [] := by
  unfold Room cutFirst
  split
  · simp only [List.filter_eq_nil_iff, Bool.not_eq_true]
  · exact List.drop_eq_nil_iff.symm

/-- What a scan for the first value leaves. -/
theorem Tracked.rescan_eq (tracked : Tracked hits size width results) {scan : Rescan Epsilon}
    (mode : scan.mode = .sameAsFirst) (going : scan.cancel.done = false) :
    rescan floats results scan =
      if widthAfter width scan = size then
        (keptFirst results scan).map fun entry => recordOf entry entry.first
      else [] := by
  have loop : rescan floats results scan =
      narrowLoop floats scan.view scan.options .sameAsFirst scan.value scan.cancel 0 results [] := by
    simp only [rescan, narrow, scanNext, mode, going, Bool.false_eq_true, ↓reduceIte]
  have each : ∀ entry ∈ results,
      survivor floats scan.view scan.options .sameAsFirst scan.value entry =
        if widthAfter width scan = size ∧ stillFirst scan.view entry = true then
          some (recordOf entry entry.first) else none :=
    fun entry inside => tracked.survivor_eq inside going
  rw [loop]
  split
  · rename_i same
    simp only [same, true_and] at each
    unfold keptFirst
    split
    · rename_i zero
      have readable : results.filter
          (fun candidate => (holds scan.view scan.value candidate).isSome) =
          results.filter (firstReadable scan.view) :=
        List.filter_congr fun entry inside => tracked.holds_isSome inside going same
      rw [narrowLoop_zero going zero, readable, List.filterMap_congr fun entry taken =>
        each entry (List.mem_of_mem_filter (List.mem_of_mem_take taken))]
      exact filterMap_if _ _ _
    · rename_i some_
      have room : ([] : List ScanResult).length < scan.options.maxResults :=
        Nat.pos_of_ne_zero some_
      rw [narrowLoop_take going results room, List.filterMap_congr each, List.nil_append,
        filterMap_if, List.map_take, List.length_nil, Nat.sub_zero]
  · rename_i different
    refine narrowLoop_none results (fun entry inside => ?_) 0 []
    rw [each entry inside, if_neg fun both => different both.1]

/-- What a scan for the first value keeps is what holds its first bytes just when it reads their
width and has the room, or nothing holds them. -/
theorem Tracked.keepsFirst_iff (tracked : Tracked hits size width results) {scan : Rescan Epsilon}
    (mode : scan.mode = .sameAsFirst) (going : scan.cancel.done = false) :
    KeepsFirst floats results scan ↔
      (widthAfter width scan = size ∧ Room results scan) ∨
        ∀ entry ∈ results, stillFirst scan.view entry = false := by
  have none_ : (∀ entry ∈ results, stillFirst scan.view entry = false) ↔
      results.filter (stillFirst scan.view) = [] := by
    simp only [List.filter_eq_nil_iff, Bool.not_eq_true]
  rw [KeepsFirst, tracked.rescan_eq mode going, none_, room_iff,
    ← keptFirst_append_cutFirst results scan]
  by_cases same : widthAfter width scan = size
  · have kept : ((keptFirst results scan).map fun entry => recordOf entry entry.first).map
        (fun entry => (entry.address, entry.first)) =
        (keptFirst results scan).map fun entry => (entry.address, entry.first) := by
      rw [List.map_map]
      refine List.map_congr_left fun entry inside => ?_
      have listed : entry ∈ results.filter (stillFirst scan.view) :=
        keptFirst_append_cutFirst results scan ▸ List.mem_append_left _ inside
      simp only [Function.comp_apply, recordOf, tracked.firstBytes_eq (List.mem_of_mem_filter listed)]
    rw [if_pos same, kept, List.map_append, List.self_eq_append_right, List.map_eq_nil_iff,
      List.append_eq_nil_iff]
    simp only [same, true_and]
    exact ⟨Or.inl, fun either => either.elim id And.right⟩
  · rw [if_neg same, List.map_nil, eq_comm, List.map_eq_nil_iff]
    simp only [same, false_and, false_or]

end Tracked

/-- After any next scans, each with options of its own, a candidate still has the bytes that the
first scan read where it is. A scan for them keeps exactly the candidates that hold them again just
when the last value that had a width, if there was one, was as wide as that of the first scan and
the limit by then has room for them, or no candidate holds them. -/
theorem sameAsFirst_iff (first : First Epsilon) (scans : List (Rescan Epsilon)) :
    let results := Runs.run (rescan floats) (first.hits floats) scans
    (∀ entry ∈ results, ∃ hit ∈ first.hits floats, hit.address = entry.address ∧
      hit.first = entry.first ∧
        entry.first = readable first.view.memory entry.address first.value.bytes.length) ∧
    ∀ scan : Rescan Epsilon, scan.mode = .sameAsFirst → scan.cancel.done = false →
      (KeepsFirst floats results scan ↔
        (Runs.run widthAfter first.value.bytes.length (scans ++ [scan]) =
            first.value.bytes.length ∧ Room results scan) ∨
          ∀ entry ∈ results, stillFirst scan.view entry = false) := by
  have tracked := @Tracked.run _ floats _ _ _ _ (@Tracked.start _ floats first) scans
  generalize Runs.run (rescan floats) (first.hits floats) scans = results at tracked
  constructor
  · intro entry inside
    obtain ⟨_, hit, listed, address, bytes⟩ := tracked.first entry inside
    obtain ⟨isHit, _, _⟩ := @First.gathered _ floats first
    refine ⟨hit, listed, address, bytes, ?_⟩
    rw [← bytes, ← address]
    exact (isHit hit listed).first
  · intro scan mode going
    have width : Runs.run widthAfter first.value.bytes.length (scans ++ [scan]) =
        widthAfter (Runs.run widthAfter first.value.bytes.length scans) scan := by
      simp only [Runs.run, List.foldl_append, List.foldl_cons, List.foldl_nil]
    rw [width]
    exact tracked.keepsFirst_iff mode going

/-- Three bytes of text. -/
def textView (text : List UInt8) : TargetView where
  regions := [{ base := 0x10000, size := 3, readable := true }]
  memory := fun address => if 0x10000 ≤ address then text[address - 0x10000]? else none

def textValue (bytes : List UInt8) : ScanValue := { type := .stringAscii, bytes }

/-- A first scan of "abc" for a text. -/
def textFirst (bytes : List UInt8) : First Unit where
  view := textView [97, 98, 99]
  options := { floatEpsilon := () }
  mode := .exact
  value := textValue bytes
  cancel := .never

def textNext (text : List UInt8) (mode : ScanMode) (bytes : List UInt8) : Rescan Unit where
  view := textView text
  options := { floatEpsilon := () }
  mode := mode
  value := textValue bytes
  cancel := .never

/-- Away and back again. -/
theorem textFirst_kept :
    KeepsFirst noFloatSteps
      (Runs.run (rescan noFloatSteps) ((textFirst [97, 98]).hits noFloatSteps)
        [textNext [97, 120, 99] .changed []])
      (textNext [97, 98, 99] .sameAsFirst []) :=
  ((@sameAsFirst_iff _ noFloatSteps (textFirst [97, 98]) [textNext [97, 120, 99] .changed []]).2
    (textNext [97, 98, 99] .sameAsFirst []) rfl rfl).mpr (Or.inl ⟨rfl, by decide⟩)

/-- "ab" is found, then narrowed to "abc", and a scan for the first value drops it, though "ab"
still stands there. -/
theorem longerText_dropped :
    let results := Runs.run (rescan noFloatSteps) ((textFirst [97, 98]).hits noFloatSteps)
      [textNext [97, 98, 99] .exact [97, 98, 99]]
    results = [⟨0x10000, [97, 98], [97, 98, 99], [97, 98]⟩] ∧
      (∀ entry ∈ results, stillFirst (textView [97, 98, 99]) entry = true) ∧
      rescan noFloatSteps results (textNext [97, 98, 99] .sameAsFirst []) = [] ∧
      ¬ KeepsFirst noFloatSteps results (textNext [97, 98, 99] .sameAsFirst []) := by
  unfold KeepsFirst
  decide

end PointerLab.MemoryScanner
