import Mathlib.Data.List.Pairwise
import PointerLab.DissectorLayout

set_option autoImplicit false

/- `engine_struct/Dissector.cpp`: what `guess` makes of the bytes it reads, against what
`classify` says of the same bytes. -/
namespace PointerLab.Dissector

open Domain ProjectStore

def classify (bitness : Bitness) (ranges : List (Nat × Nat)) (samples : List (List UInt8)) :
    ValueType :=
  match samples with
  | [] => .bytes
  | front :: _ =>
      let width := front.length
      if samples.any fun sample => sample.length != width then .bytes
      else if width = pointerSize bitness && pointerLike samples (pointerSize bitness) ranges then
        if pointerSize bitness = 8 then .uInt64 else .uInt32
      else if width = 8 then
        if everySampleOrZero samples looksLikeDouble then .double else .int64
      else if width = 4 then
        if everySampleOrZero samples looksLikeFloat then .float else .int32
      else .bytes

/-- How much `guess` reads of each address. -/
def guessedSize (size : Nat) : Nat :=
  let size := if size = 0 then defaultSize else size
  size - size % 4

/-- The samples it goes by: what was read in full. -/
def readWindows (targets : Nat → TargetView) (addresses : List Nat) (size : Nat) :
    List (List UInt8) :=
  (addresses.mapIdx fun index address => (targets index).readBytes address size).filterMap
    fun read =>
      match read with
      | .ok bytes => if bytes.length = size then some bytes else none
      | .error _ => none

/-- The fields lie side by side from one place to another. -/
def Tiles (stop : Nat) : Nat → List StructureField → Prop
  | start, [] => start = stop
  | start, field :: rest =>
      field.offset = start ∧ 0 < field.size ∧ Tiles stop (start + field.size) rest

/-- The eight bytes at an offset are two fields of four. -/
def Split (fields : List StructureField) (offset : Nat) : Prop :=
  (∃ field ∈ fields, field.offset = offset ∧ field.size = 4) ∧
    ∃ field ∈ fields, field.offset = (offset + 4 : Nat) ∧ field.size = 4

section

variable (bitness : Bitness) (ranges : List (Nat × Nat)) (windows : List (List UInt8))

structure Guessed (size : Nat) (fields : List StructureField) : Prop where
  tiles : Tiles size 0 fields
  /-- No field straddles a slot: what is not a whole aligned slot is four bytes. -/
  widths : ∀ field ∈ fields, field.size = 4 ∨ (field.size = 8 ∧ field.offset % 8 = 0)
  classified : ∀ field ∈ fields, ∃ offset : Nat, field.offset = offset ∧
    field.type = classify bitness ranges (samplesAt windows offset field.size)
  split : ∀ offset, offset % 8 = 0 → offset + 8 ≤ size →
    (Split fields offset ↔ classify bitness ranges (samplesAt windows offset 8) = .int64)

end

variable {bitness : Bitness} {ranges : List (Nat × Nat)} {windows : List (List UInt8)}
  {size : Nat}

/-- Samples of one width are never taken for raw bytes on account of their widths. -/
theorem classify_uniform {samples : List (List UInt8)} {width : Nat} (some_ : samples ≠ [])
    (widths : ∀ sample ∈ samples, sample.length = width) :
    classify bitness ranges samples =
      if width = pointerSize bitness && pointerLike samples (pointerSize bitness) ranges then
        if pointerSize bitness = 8 then .uInt64 else .uInt32
      else if width = 8 then
        if everySampleOrZero samples looksLikeDouble then .double else .int64
      else if width = 4 then
        if everySampleOrZero samples looksLikeFloat then .float else .int32
      else .bytes := by
  cases samples with
  | nil => exact absurd rfl some_
  | cons front rest =>
      have same : front.length = width := widths front List.mem_cons_self
      have uniform : ((front :: rest).any fun sample => sample.length != width) = false := by
        rw [List.any_eq_false]
        intro sample inside
        simp [widths sample inside]
      unfold classify
      simp only [same, uniform, Bool.false_eq_true, if_false]

theorem samplesAt_ne_nil (some_ : windows ≠ []) (offset width : Nat) :
    samplesAt windows offset width ≠ [] := by
  simpa [samplesAt] using some_

theorem samplesAt_width (full : ∀ window ∈ windows, window.length = size) {offset width : Nat}
    (inside : offset + width ≤ size) :
    ∀ sample ∈ samplesAt windows offset width, sample.length = width := by
  intro sample isSample
  obtain ⟨window, isWindow, same⟩ := List.mem_map.mp isSample
  have length := full window isWindow
  rw [← same, List.length_take, List.length_drop]
  omega

/-- `guess` asks in an order of its own and leaves a plain integer to the four-byte slots. -/
theorem eightAt_eq (some_ : windows ≠ []) (full : ∀ window ∈ windows, window.length = size)
    {offset : Nat} (aligned : offset % 8 = 0) (inside : offset + 8 ≤ size) :
    eightAt bitness ranges windows size offset =
      if classify bitness ranges (samplesAt windows offset 8) = .int64 then none
      else some (classify bitness ranges (samplesAt windows offset 8)) := by
  rw [classify_uniform (samplesAt_ne_nil some_ _ _) (samplesAt_width full inside)]
  unfold eightAt
  simp only [aligned, inside, and_self, if_true]
  cases bitness with
  | x86 =>
      simp only [pointerSize]
      cases everySampleOrZero (samplesAt windows offset 8) looksLikeDouble <;> simp
  | x64 =>
      simp only [pointerSize]
      cases pointerLike (samplesAt windows offset 8) 8 ranges <;>
        cases everySampleOrZero (samplesAt windows offset 8) looksLikeDouble <;> simp

theorem fourAt_eq (some_ : windows ≠ []) (full : ∀ window ∈ windows, window.length = size)
    {offset : Nat} (inside : offset + 4 ≤ size) :
    fourAt bitness ranges windows offset =
      classify bitness ranges (samplesAt windows offset 4) := by
  rw [classify_uniform (samplesAt_ne_nil some_ _ _) (samplesAt_width full inside)]
  unfold fourAt
  cases bitness <;> simp [pointerSize]

theorem eightAt_size {offset : Nat} {type : ValueType}
    (eight : eightAt bitness ranges windows size offset = some type) :
    valueTypeSize type = 8 ∧ offset % 8 = 0 ∧ offset + 8 ≤ size := by
  unfold eightAt at eight
  split at eight
  · rename_i slot
    refine ⟨?_, slot⟩
    simp only at eight
    split at eight
    · cases eight
      rfl
    · split at eight
      · cases eight
        rfl
      · cases eight
  · cases eight

theorem fourAt_size (offset : Nat) : valueTypeSize (fourAt bitness ranges windows offset) = 4 := by
  unfold fourAt
  simp only
  split
  · rfl
  · split <;> rfl

/-- A slot of eight bytes, and a slot of four, as fields. -/
def slotField (offset : Nat) (type : ValueType) : StructureField :=
  { offset, type, name := defaultFieldName offset }

theorem slotField_size {offset : Nat} {type : ValueType} {width : Nat} (positive : 0 < width)
    (fixed : valueTypeSize type = width) : (slotField offset type).size = width := by
  simp only [StructureField.size, slotField, fixed]
  rw [if_pos (by simpa using Nat.ne_of_gt positive)]

theorem slotsFrom_tiles (size offset : Nat) (aligned : offset % 4 = 0) (whole : size % 4 = 0)
    (inside : offset ≤ size) :
    Tiles size offset (slotsFrom bitness ranges windows size offset) := by
  fun_induction slotsFrom bitness ranges windows size offset with
  | case1 offset room type eight ih =>
      obtain ⟨fixed, slot⟩ := eightAt_size eight
      have width := @slotField_size offset type 8 (by decide) fixed
      refine ⟨rfl, Nat.lt_of_lt_of_eq (by decide) width.symm, ?_⟩
      show Tiles size (offset + (slotField offset type).size) _
      rw [width]
      exact ih (by omega) (by omega)
  | case2 offset room none_ ih =>
      have width := @slotField_size offset (fourAt bitness ranges windows offset) 4 (by decide)
        (fourAt_size offset)
      refine ⟨rfl, Nat.lt_of_lt_of_eq (by decide) width.symm, ?_⟩
      show Tiles size (offset + (slotField offset (fourAt bitness ranges windows offset)).size) _
      rw [width]
      exact ih (by omega) (by omega)
  | case3 offset full =>
      show offset = size
      omega

theorem slotsFrom_classified (some_ : windows ≠ [])
    (full : ∀ window ∈ windows, window.length = size) (offset : Nat) :
    ∀ field ∈ slotsFrom bitness ranges windows size offset, ∃ offset : Nat,
      field.offset = offset ∧
        field.type = classify bitness ranges (samplesAt windows offset field.size) := by
  fun_induction slotsFrom bitness ranges windows size offset with
  | case1 offset room type eight ih =>
      obtain ⟨fixed, aligned, inside⟩ := eightAt_size eight
      refine List.forall_mem_cons.mpr ⟨⟨offset, rfl, ?_⟩, ih⟩
      have width := @slotField_size offset type 8 (by decide) fixed
      rw [eightAt_eq some_ full aligned inside] at eight
      split at eight
      · cases eight
      · have same := Option.some.inj eight
        unfold slotField at width
        rw [width]
        exact same.symm
  | case2 offset room none_ ih =>
      refine List.forall_mem_cons.mpr ⟨⟨offset, rfl, ?_⟩, ih⟩
      have width := @slotField_size offset (fourAt bitness ranges windows offset) 4 (by decide)
        (fourAt_size offset)
      unfold slotField at width
      rw [width]
      exact fourAt_eq some_ full room
  | case3 => exact fun _ inside => absurd inside List.not_mem_nil

theorem slotsFrom_widths (offset : Nat) :
    ∀ field ∈ slotsFrom bitness ranges windows size offset,
      field.size = 4 ∨ (field.size = 8 ∧ field.offset % 8 = 0) := by
  fun_induction slotsFrom bitness ranges windows size offset with
  | case1 offset room type eight ih =>
      obtain ⟨fixed, aligned, -⟩ := eightAt_size eight
      refine List.forall_mem_cons.mpr ⟨Or.inr ⟨?_, ?_⟩, ih⟩
      · exact @slotField_size offset type 8 (by decide) fixed
      · show (offset : Int) % 8 = 0
        omega
  | case2 offset room none_ ih =>
      refine List.forall_mem_cons.mpr ⟨Or.inl ?_, ih⟩
      exact @slotField_size offset (fourAt bitness ranges windows offset) 4 (by decide)
        (fourAt_size offset)
  | case3 => exact fun _ inside => absurd inside List.not_mem_nil

/-- Where no eight-byte slot is, the loop takes four bytes. -/
theorem slotsFrom_four {offset : Nat} (room : offset + 4 ≤ size)
    (none_ : eightAt bitness ranges windows size offset = none) :
    slotsFrom bitness ranges windows size offset =
      slotField offset (fourAt bitness ranges windows offset) ::
        slotsFrom bitness ranges windows size (offset + 4) := by
  rw [slotsFrom, if_pos room, none_]
  rfl

theorem slotsFrom_eight {offset : Nat} {type : ValueType}
    (eight : eightAt bitness ranges windows size offset = some type) :
    slotsFrom bitness ranges windows size offset =
      slotField offset type :: slotsFrom bitness ranges windows size (offset + 8) := by
  have room : offset + 4 ≤ size := by
    have inside := (eightAt_size eight).2.2
    omega
  rw [slotsFrom, if_pos room, eight]
  rfl

/-- The loop comes to each aligned slot, and takes it as a whole or as two halves. -/
theorem slotsFrom_slot (offset : Nat) (aligned : offset % 4 = 0) {place : Nat}
    (slot : place % 8 = 0) (inside : place + 8 ≤ size) (ahead : offset ≤ place) :
    (∀ type, eightAt bitness ranges windows size place = some type →
      ∃ field ∈ slotsFrom bitness ranges windows size offset,
        field.offset = place ∧ field.size = 8) ∧
      (eightAt bitness ranges windows size place = none →
        Split (slotsFrom bitness ranges windows size offset) place) := by
  rcases Nat.lt_or_eq_of_le ahead with before | here
  · have room : offset + 4 ≤ size := by omega
    have wider : ∀ {fields : List StructureField} {first : StructureField},
        Split fields place → Split (first :: fields) place := by
      intro fields first ⟨⟨low, inLow, lowIs⟩, high, inHigh, highIs⟩
      exact ⟨⟨low, List.mem_cons_of_mem _ inLow, lowIs⟩, high,
        List.mem_cons_of_mem _ inHigh, highIs⟩
    cases eight : eightAt bitness ranges windows size offset with
    | some type =>
        have here := (eightAt_size eight).2.1
        have next := slotsFrom_slot (offset + 8) (by omega) slot inside (by omega)
        rw [slotsFrom_eight eight]
        constructor
        · intro type whole
          obtain ⟨field, isField, is⟩ := next.1 type whole
          exact ⟨field, List.mem_cons_of_mem _ isField, is⟩
        · exact fun none_ => wider (next.2 none_)
    | none =>
        have next := slotsFrom_slot (offset + 4) (by omega) slot inside (by omega)
        rw [slotsFrom_four room eight]
        constructor
        · intro type whole
          obtain ⟨field, isField, is⟩ := next.1 type whole
          exact ⟨field, List.mem_cons_of_mem _ isField, is⟩
        · exact fun none_ => wider (next.2 none_)
  · subst here
    constructor
    · intro type eight
      rw [slotsFrom_eight eight]
      exact ⟨_, List.mem_cons_self, rfl, slotField_size (by decide) (eightAt_size eight).1⟩
    · intro none_
      have half : eightAt bitness ranges windows size (offset + 4) = none := by
        unfold eightAt
        rw [if_neg (by omega)]
      rw [slotsFrom_four (by omega) none_, slotsFrom_four (by omega) half]
      exact ⟨⟨_, List.mem_cons_self, rfl, slotField_size (by decide) (fourAt_size _)⟩,
        _, List.mem_cons_of_mem _ List.mem_cons_self, rfl,
        slotField_size (by decide) (fourAt_size _)⟩
termination_by size - offset

theorem Tiles.starts {fields : List StructureField} {start : Nat}
    (tiles : Tiles size start fields) : ∀ field ∈ fields, (start : Int) ≤ field.offset := by
  induction fields generalizing start with
  | nil => exact fun _ => nofun
  | cons field rest ih =>
      obtain ⟨here, _, next⟩ := tiles
      refine List.forall_mem_cons.mpr ⟨Int.le_of_eq here.symm, ?_⟩
      intro other inRest
      have later := ih next other inRest
      omega

/-- A tiling is a layout. -/
theorem Tiles.behind {fields : List StructureField} {start : Nat}
    (tiles : Tiles size start fields) :
    fields.Pairwise fun left right => left.offset + (left.size : Int) ≤ right.offset := by
  induction fields generalizing start with
  | nil => exact .nil
  | cons field rest ih =>
      obtain ⟨here, _, next⟩ := tiles
      refine List.pairwise_cons.mpr ⟨?_, ih next⟩
      intro other inRest
      have later := next.starts other inRest
      omega

theorem Tiles.wide {fields : List StructureField} {start : Nat}
    (tiles : Tiles size start fields) : ∀ field ∈ fields, field.size ≠ 0 := by
  induction fields generalizing start with
  | nil => exact fun _ => nofun
  | cons field rest ih =>
      obtain ⟨_, positive, next⟩ := tiles
      exact List.forall_mem_cons.mpr ⟨Nat.ne_of_gt positive, ih next⟩

theorem slotsFrom_layout (small : size ≤ maxSize) (whole : size % 4 = 0) :
    Layout (slotsFrom bitness ranges windows size 0) := by
  have tiles : Tiles size 0 (slotsFrom bitness ranges windows size 0) :=
    slotsFrom_tiles size 0 rfl whole (Nat.zero_le size)
  exact ⟨tiles.behind, tiles.wide, slotsFrom_fits small 0⟩

/-- Fields of a layout at one place are one field. -/
theorem Layout.same {fields : List StructureField} (layout : Layout fields)
    {left right : StructureField} (inLeft : left ∈ fields) (inRight : right ∈ fields)
    (same : left.offset = right.offset) : left = right := by
  by_contra different
  have symmetric : Std.Symm fun left right : StructureField => left.offset ≠ right.offset :=
    ⟨fun _ _ other => other.symm⟩
  have distinct := layout.laidOut.sorted.imp fun before => Int.ne_of_lt before
  exact distinct.forall inLeft inRight different same

theorem slotsFrom_guessed (some_ : windows ≠ [])
    (full : ∀ window ∈ windows, window.length = size) (small : size ≤ maxSize)
    (whole : size % 4 = 0) :
    Guessed bitness ranges windows size (slotsFrom bitness ranges windows size 0) := by
  refine ⟨slotsFrom_tiles size 0 rfl whole (Nat.zero_le size), slotsFrom_widths 0,
    slotsFrom_classified some_ full 0, ?_⟩
  intro offset aligned inside
  have slot := @slotsFrom_slot bitness ranges windows size 0 rfl offset aligned inside
    (Nat.zero_le offset)
  have eight := @eightAt_eq bitness ranges windows size some_ full offset aligned inside
  constructor
  · intro split_
    by_contra other
    rw [if_neg other] at eight
    obtain ⟨field, isField, here, width⟩ := slot.1 _ eight
    obtain ⟨half, isHalf, halfHere, halfWidth⟩ := split_.1
    have same := (slotsFrom_layout small whole).same isField isHalf (here.trans halfHere.symm)
    rw [same, halfWidth] at width
    exact absurd width (by decide)
  · intro plain
    rw [if_pos plain] at eight
    exact slot.2 eight

theorem readWindows_full (targets : Nat → TargetView) (addresses : List Nat) (size : Nat) :
    ∀ window ∈ readWindows targets addresses size, window.length = size := by
  intro window isWindow
  obtain ⟨read, _, kept⟩ := List.mem_filterMap.mp isWindow
  split at kept
  · split at kept
    · cases kept
      assumption
    · cases kept
  · cases kept

theorem slotsFrom_named (offset : Nat) :
    ∀ field ∈ slotsFrom bitness ranges windows size offset, field.name ≠ [] := by
  fun_induction slotsFrom bitness ranges windows size offset with
  | case1 offset room type eight ih =>
      exact List.forall_mem_cons.mpr ⟨defaultFieldName_ne_nil (offset : Int), ih⟩
  | case2 offset room none_ ih =>
      exact List.forall_mem_cons.mpr ⟨defaultFieldName_ne_nil (offset : Int), ih⟩
  | case3 => exact fun _ inside => absurd inside List.not_mem_nil

theorem guessedSize_whole (size : Nat) : guessedSize size % 4 = 0 := by
  unfold guessedSize
  simp only
  omega

/-- The list is never refused. -/
theorem slotsFrom_accepted {d : Dissector} {id : Nat} {structure_ : Structure}
    (found : d.find id = some structure_) (small : size ≤ maxSize) (whole : size % 4 = 0) :
    (d.setFields id (slotsFrom bitness ranges windows size 0)).2 = .ok () ∧
      (d.setFields id (slotsFrom bitness ranges windows size 0)).1.find id =
        some { structure_ with fields := slotsFrom bitness ranges windows size 0 } :=
  setFields_layout found (slotsFrom_layout small whole) (slotsFrom_named 0)

/-- What a `guess` that succeeds has gone through. -/
theorem guess_ok {d : Dissector} {id : Nat} {addresses : List Nat} {session : TargetView}
    {targets : Nat → TargetView} {count : Nat}
    (succeeds : (d.guess id addresses size session targets).2 = .ok count) :
    ∃ structure_ windows fields, d.find id = some structure_ ∧
      windows = readWindows targets addresses (guessedSize size) ∧ windows ≠ [] ∧
      guessedSize size ≤ maxSize ∧
      fields = slotsFrom session.bitness (readableRanges session) windows (guessedSize size) 0 ∧
      count = fields.length ∧
      (d.guess id addresses size session targets).1 = (d.setFields id fields).1 := by
  unfold Dissector.guess at succeeds ⊢
  split at succeeds
  · cases succeeds
  rename_i known
  split at succeeds
  · cases succeeds
  rename_i asked
  split at succeeds
  · cases succeeds
  rename_i attached
  rw [if_neg known, if_neg asked, if_neg attached]
  have size_eq : guessedSize size =
      (if size = 0 then defaultSize else size) - (if size = 0 then defaultSize else size) % 4 := rfl
  simp only at succeeds ⊢
  generalize (if size = 0 then defaultSize else size) = wanted at size_eq succeeds ⊢
  split at succeeds
  · cases succeeds
  rename_i small
  rw [if_neg small]
  split at succeeds
  · cases succeeds
  rename_i room
  rw [if_neg room, size_eq]
  split at succeeds
  · cases succeeds
  rename_i readable_
  rw [if_neg readable_]
  obtain ⟨structure_, found⟩ := Option.ne_none_iff_exists'.mp (by simpa using known)
  have fits : wanted - wanted % 4 ≤ maxSize := Nat.le_trans (Nat.sub_le _ _) (Nat.not_lt.mp small)
  generalize fieldsAre : slotsFrom session.bitness (readableRanges session) _ _ 0 = fields
    at succeeds ⊢
  have windows_ne : readWindows targets addresses (wanted - wanted % 4) ≠ [] := by
    intro none_
    apply readable_
    rw [List.isEmpty_iff]
    exact none_
  rcases sets : d.setFields id fields with ⟨after, failure | _⟩
  · rw [sets] at succeeds
    cases succeeds
  · rw [sets] at succeeds
    exact ⟨structure_, readWindows targets addresses (wanted - wanted % 4), fields, found, rfl,
      windows_ne, fits, fieldsAre.symm, (Except.ok.inj succeeds).symm, by rw [sets]⟩

/-- With something read in full there is nothing left for a guess to fail on. -/
theorem guess_of_windows {d : Dissector} {id : Nat} {structure_ : Structure}
    (found : d.find id = some structure_) {addresses : List Nat} {session : TargetView}
    (attached : session.attached = true) {targets : Nat → TargetView}
    (small : (if size = 0 then defaultSize else size) ≤ maxSize) (room : 4 ≤ guessedSize size)
    (read : readWindows targets addresses (guessedSize size) ≠ []) :
    (d.guess id addresses size session targets).1 =
      (d.setFields id (slotsFrom session.bitness (readableRanges session)
        (readWindows targets addresses (guessedSize size)) (guessedSize size) 0)).1 := by
  have asked : addresses ≠ [] := fun none_ => read (by rw [none_]; rfl)
  unfold Dissector.guess
  rw [if_neg (by simp [found]), if_neg (by simpa using asked), if_neg (by simp [attached])]
  have size_eq : guessedSize size =
      (if size = 0 then defaultSize else size) - (if size = 0 then defaultSize else size) % 4 := rfl
  simp only
  generalize (if size = 0 then defaultSize else size) = wanted at size_eq small ⊢
  rw [size_eq] at room read ⊢
  rw [if_neg (Nat.not_lt.mpr small)]
  split
  · rename_i tooSmall
    exact absurd room (Nat.not_le.mpr tooSmall)
  split
  · rename_i none_
    exact absurd (List.isEmpty_iff.mp none_) read
  generalize fieldsAre : slotsFrom session.bitness (readableRanges session) _ _ 0 = fields
  have same : slotsFrom session.bitness (readableRanges session)
      (readWindows targets addresses (wanted - wanted % 4)) (wanted - wanted % 4) 0 = fields :=
    fieldsAre
  rw [same]
  rcases d.setFields id fields with ⟨after, failure | _⟩ <;> rfl

/-- When a guess succeeds, the structure has a field list that tiles what was read and says of
each slot what `classify` says of it; and the list of a guess is never refused. -/
theorem guess_tiles (d : Dissector) (id : Nat) (addresses : List Nat) (size : Nat)
    (session : TargetView) (targets : Nat → TargetView) :
    (∀ count, (d.guess id addresses size session targets).2 = .ok count →
      ∃ structure_, (d.guess id addresses size session targets).1.find id = some structure_ ∧
        structure_.fields.length = count ∧
        Guessed session.bitness (readableRanges session)
          (readWindows targets addresses (guessedSize size)) (guessedSize size)
          structure_.fields) ∧
      ((d.find id).isSome → guessedSize size ≤ maxSize →
        (d.setFields id (slotsFrom session.bitness (readableRanges session)
          (readWindows targets addresses (guessedSize size)) (guessedSize size) 0)).2 =
            .ok ()) := by
  constructor
  · intro count succeeds
    obtain ⟨structure_, windows, fields, found, windows_eq, some_, small, fields_eq, counts,
      after⟩ := guess_ok succeeds
    have full := readWindows_full targets addresses (guessedSize size)
    rw [← windows_eq] at full ⊢
    have guessed := @slotsFrom_guessed session.bitness (readableRanges session) windows
      (guessedSize size) some_ full small (guessedSize_whole size)
    rw [← fields_eq] at guessed
    have accepted := @slotsFrom_accepted session.bitness (readableRanges session) windows
      (guessedSize size) d id structure_ found small (guessedSize_whole size)
    rw [← fields_eq] at accepted
    refine ⟨{ structure_ with fields }, ?_, counts.symm, guessed⟩
    rw [after]
    exact accepted.2
  · intro known small
    obtain ⟨structure_, found⟩ := Option.isSome_iff_exists.mp known
    exact (slotsFrom_accepted found small (guessedSize_whole size)).1

/-- A pointer into the object itself, and the float 1. -/
def object (address : Nat) : Option UInt8 :=
  if 0x10000 ≤ address then
    [0x08, 0x00, 0x01, 0x00, 0x00, 0x00, 0x00, 0x00, 0x00, 0x00, 0x80, 0x3F][address - 0x10000]?
  else none

def target : TargetView where
  regions := [{ base := 0x10000, size := 0x1000, state := 0x1000, readable := true }]
  memory := object

def player : Dissector :=
  { structures := [{ id := 1, name := "Player".toList }], nextId := 2 }

theorem guess_tiles_player :
    (∃ structure_, (player.guess 1 [0x10000] 12 target fun _ => target).1.find 1 =
        some structure_ ∧ structure_.fields.length = 2 ∧
      Guessed .x64 (readableRanges target)
        (readWindows (fun _ => target) [0x10000] (guessedSize 12)) (guessedSize 12)
        structure_.fields) ∧
      (player.setFields 1 (slotsFrom .x64 (readableRanges target)
        (readWindows (fun _ => target) [0x10000] (guessedSize 12)) (guessedSize 12) 0)).2 =
          .ok () :=
  have tiles := guess_tiles player 1 [0x10000] 12 target fun _ => target
  ⟨tiles.1 2 (by decide +kernel), tiles.2 (by decide) (by decide)⟩

theorem Tiles.stop {fields : List StructureField} {start other : Nat}
    (tiles : Tiles size start fields) (again : Tiles other start fields) : size = other := by
  induction fields generalizing start with
  | nil => exact tiles.symm.trans again
  | cons field rest ih => exact ih tiles.2.2 again.2.2

instance (fields : List StructureField) (offset : Nat) : Decidable (Split fields offset) :=
  inferInstanceAs (Decidable (_ ∧ _))

def zeros : TargetView := { memory := fun _ => some 0 }

theorem readable_zeros (address size : Nat) :
    TargetView.readable zeros.memory address size = List.replicate size 0 := by
  induction size generalizing address with
  | zero => rfl
  | succ size ih =>
      rw [TargetView.readable, List.replicate_succ, ← ih (address + 1)]
      rfl

/-- Of the last four bytes there is one field, not two; and a size of zero is not taken as
one. -/
theorem guess_rest_unsplit :
    (∃ fields, ((player.guess 1 [0x10008] 4 target fun _ => target).1.find 1).map
        Structure.fields = some fields ∧ ¬ Split fields 0) ∧
      ∃ fields, ((player.guess 1 [0x10000] 0 zeros fun _ => zeros).1.find 1).map
        Structure.fields = some fields ∧ ¬ Tiles 0 0 fields := by
  constructor
  · refine ⟨[{ offset := 0, type := .float, name := "field_0".toList }], ?_, ?_⟩
    · decide +kernel
    · decide +kernel
  · have found : player.find 1 = some { id := 1, name := "Player".toList } := rfl
    have bytes : zeros.readBytes 0x10000 (guessedSize 0) =
        .ok (List.replicate (guessedSize 0) 0) := by
      unfold TargetView.readBytes
      simp only
      rw [readable_zeros]
      rfl
    have read : readWindows (fun _ => zeros) [0x10000] (guessedSize 0) ≠ [] := by
      simp [readWindows, bytes]
    have after := @guess_of_windows 0 player 1 _ found [0x10000] zeros rfl (fun _ => zeros)
      (by decide) (by decide) read
    have accepted := @slotsFrom_accepted .x64 (readableRanges zeros)
      (readWindows (fun _ => zeros) [0x10000] (guessedSize 0)) (guessedSize 0) player 1 _ found
      (by decide) (by decide)
    have same : zeros.bitness = .x64 := rfl
    rw [after, same, accepted.2]
    refine ⟨_, rfl, ?_⟩
    intro none_
    have all := @slotsFrom_tiles .x64 (readableRanges zeros)
      (readWindows (fun _ => zeros) [0x10000] (guessedSize 0)) (guessedSize 0) 0 rfl (by decide)
      (Nat.zero_le _)
    exact absurd (none_.stop all) (by decide)

end PointerLab.Dissector
