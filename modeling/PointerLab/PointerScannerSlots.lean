import PointerLab.Levels
import PointerLab.PointerScanner

set_option autoImplicit false

/- The slots a pointer scan looks at, and the hops between them. -/
namespace PointerLab.PointerScanner

open Domain Sweep TargetView

/-- The memory of a target that stands still: what is listed as readable can be read, and
lies in the address space from a pointer-aligned address on. -/
structure Static (view : TargetView) : Prop where
  attached : view.attached = true
  whole : ∀ region ∈ view.regions, region.readable = true → ∀ index < region.size,
    view.memory (region.base + index) ≠ none
  aligned : ∀ region ∈ view.regions, region.readable = true →
    pointerSize view.bitness ∣ region.base
  bounded : ∀ region ∈ view.regions, region.readable = true →
    region.base + region.size ≤ addressSpace

/-- A pointer-aligned slot of a readable region, and the pointer in it. -/
def Slot (view : TargetView) (address pointer : Nat) : Prop :=
  readPointer view address = .ok pointer ∧ pointerSize view.bitness ∣ address ∧
    ∃ region ∈ view.regions, region.readable = true ∧ region.base ≤ address ∧
      address + pointerSize view.bitness ≤ region.base + region.size

/-- The pointer comes within reach below the address. -/
def Near (options : PointerScanOptions) (pointer address : Nat) : Prop :=
  pointer ≠ 0 ∧ pointer ≤ address ∧ address ≤ pointer + options.maxOffset

/-- One hop: the pointer in an aligned slot, plus an offset. -/
def Hop (view : TargetView) (options : PointerScanOptions) (address next : Nat) : Prop :=
  ∃ pointer, Slot view address pointer ∧ Near options pointer next

theorem pointerSize_cases (bitness : Bitness) : pointerSize bitness = 4 ∨ pointerSize bitness = 8 := by
  cases bitness
  · exact Or.inl rfl
  · exact Or.inr rfl

theorem pointerSize_pos (bitness : Bitness) : 0 < pointerSize bitness := by
  have := pointerSize_cases bitness
  omega

/-- A pointer can be read wherever all its bytes can. -/
theorem readPointer_eq {view : TargetView} {address : Nat} (attached : view.attached = true)
    (whole : (readable view.memory address (pointerSize view.bitness)).length =
      pointerSize view.bitness) :
    readPointer view address =
      .ok (littleEndian (readable view.memory address (pointerSize view.bitness))) := by
  have answered := readBytes_eq attached (whole ▸ pointerSize_pos view.bitness)
  unfold readPointer
  simp only [answered, whole, bne_self_eq_false, Bool.false_eq_true, ↓reduceIte]

/-- The slots of one chunk, when nothing cuts the loop short. -/
theorem mem_slotsOfChunk {view : TargetView} {region : MemoryRegion} {offset address pointer : Nat}
    {cancelled : Nat → Bool} (attached : view.attached = true)
    (inside : (address, pointer) ∈ slotsOfChunk view cancelled region offset) :
    ∃ i, address = region.base + offset + i ∧ pointerSize view.bitness ∣ i ∧
      i + pointerSize view.bitness ≤ min pointerChunkSize (region.size - offset) ∧
      readPointer view address = .ok pointer := by
  have positive := pointerSize_pos view.bitness
  unfold slotsOfChunk at inside
  rcases readBytes_cases (region.base + offset) (min pointerChunkSize (region.size - offset))
    attached with answered | ⟨⟨_, refused⟩, _⟩
  · simp only [answered, List.mem_map, Prod.mk.injEq] at inside
    obtain ⟨i, inSteps, rfl, rfl⟩ := inside
    obtain ⟨within, aligned⟩ := (mem_steps positive).mp (List.takeWhile_prefix _ |>.subset inSteps)
    have upper := readable_length_le view.memory (region.base + offset)
      (min pointerChunkSize (region.size - offset))
    have window : ((readable view.memory (region.base + offset)
        (min pointerChunkSize (region.size - offset))).drop i).take (pointerSize view.bitness) =
        readable view.memory (region.base + offset + i) (pointerSize view.bitness) := by
      rw [readable_drop (by omega), readable_take, Nat.min_eq_left (by omega)]
    have full := congrArg List.length window
    rw [List.length_take, List.length_drop, Nat.min_eq_left (by omega)] at full
    refine ⟨i, rfl, aligned, by omega, ?_⟩
    rw [window]
    exact readPointer_eq attached full.symm
  · simp only [refused, List.not_mem_nil] at inside

theorem slotsOfChunk_mem {view : TargetView} {region : MemoryRegion} {offset i pointer : Nat}
    (attached : view.attached = true)
    (whole : ∀ index < region.size, view.memory (region.base + index) ≠ none)
    (aligned : pointerSize view.bitness ∣ i)
    (fits : i + pointerSize view.bitness ≤ min pointerChunkSize (region.size - offset))
    (answered : readPointer view (region.base + offset + i) = .ok pointer) :
    (region.base + offset + i, pointer) ∈ slotsOfChunk view (fun _ => false) region offset := by
  have positive := pointerSize_pos view.bitness
  generalize asked : min pointerChunkSize (region.size - offset) = readSize at fits
  have length : (readable view.memory (region.base + offset) readSize).length = readSize := by
    refine readable_length fun index within => ?_
    rw [Nat.add_assoc]
    exact whole (offset + index) (by omega)
  have window : ((readable view.memory (region.base + offset) readSize).drop i).take
      (pointerSize view.bitness) =
        readable view.memory (region.base + offset + i) (pointerSize view.bitness) := by
    rw [readable_drop (by omega), readable_take, Nat.min_eq_left (by omega)]
  have full := congrArg List.length window
  rw [List.length_take, List.length_drop, length, Nat.min_eq_left (by omega)] at full
  unfold slotsOfChunk
  rw [readPointer_eq attached full.symm] at answered
  have read := @readBytes_eq view (region.base + offset) readSize attached (by omega)
  simp only [asked, read, length, Bool.not_false, takeWhile_true, List.mem_map, Prod.mk.injEq]
  refine ⟨i, (mem_steps positive).mpr ⟨by omega, aligned⟩, rfl, ?_⟩
  rw [window]
  exact Except.ok.inj answered

theorem pointerSize_dvd_chunk (bitness : Bitness) : pointerSize bitness ∣ pointerChunkSize := by
  cases bitness <;> decide

/-- Whatever a depth looks at is a slot. -/
theorem slot_of_mem {view : TargetView} (static : Static view) {cancel : Cancel}
    {depth address pointer : Nat} (inside : (address, pointer) ∈ slots view cancel depth) :
    Slot view address pointer ∧ address < addressSpace := by
  simp only [slots, List.mem_flatMap] at inside
  obtain ⟨region, listed, inRegion⟩ := inside
  unfold slotsOfRegion at inRegion
  split at inRegion
  · contradiction
  · rename_i readable_
    have open_ : region.readable = true := by
      simp only [Bool.or_eq_true, Bool.not_eq_true', not_or, Bool.not_eq_false] at readable_
      exact readable_.2
    obtain ⟨offset, inOffsets, inChunk⟩ := List.mem_flatMap.mp inRegion
    obtain ⟨within, chunked⟩ := (mem_steps (by decide)).mp
      (List.takeWhile_prefix _ |>.subset inOffsets)
    obtain ⟨i, rfl, aligned, fits, answered⟩ := mem_slotsOfChunk static.attached inChunk
    have regionAligned := static.aligned region listed open_
    have bounded := static.bounded region listed open_
    have divides := pointerSize_dvd_chunk view.bitness
    have positive := pointerSize_pos view.bitness
    refine ⟨⟨answered, ?_, region, listed, open_, by omega, by omega⟩, by omega⟩
    exact Nat.dvd_add (Nat.dvd_add regionAligned (Nat.dvd_trans divides chunked)) aligned

/-- A depth that is not cancelled looks at every slot. -/
theorem mem_slots {view : TargetView} (static : Static view) {depth address pointer : Nat} :
    (address, pointer) ∈ slots view .never depth ↔ Slot view address pointer := by
  refine ⟨fun inside => (slot_of_mem static inside).1, fun slot => ?_⟩
  obtain ⟨answered, aligned, region, listed, open_, lower, upper⟩ := slot
  have regionAligned := static.aligned region listed open_
  have positive := pointerSize_pos view.bitness
  obtain ⟨place, rfl⟩ := Nat.exists_eq_add_of_le lower
  have placeAligned : pointerSize view.bitness ∣ place :=
    (Nat.dvd_add_right regionAligned).mp aligned
  simp only [slots, List.mem_flatMap]
  refine ⟨region, listed, ?_⟩
  simp only [slotsOfRegion, Cancel.never, open_, Bool.not_true, Bool.or_self, Bool.false_eq_true,
    ↓reduceIte, Bool.not_false, takeWhile_true, List.mem_flatMap]
  have below := Nat.div_mul_le_self place pointerChunkSize
  have split_ := Nat.div_add_mod' place pointerChunkSize
  have rest := Nat.mod_lt place (by decide : 0 < pointerChunkSize)
  refine ⟨place / pointerChunkSize * pointerChunkSize,
    (mem_steps (by decide)).mpr ⟨by omega, Nat.dvd_mul_left _ _⟩, ?_⟩
  have chunked : pointerSize view.bitness ∣ place / pointerChunkSize * pointerChunkSize :=
    Nat.dvd_trans (pointerSize_dvd_chunk view.bitness) (Nat.dvd_mul_left _ _)
  generalize place / pointerChunkSize * pointerChunkSize = offset at below split_ chunked ⊢
  generalize place % pointerChunkSize = i at split_ rest
  obtain rfl := split_
  have inner : pointerSize view.bitness ∣ i := (Nat.dvd_add_right chunked).mp placeAligned
  have inChunk : i + pointerSize view.bitness ≤ pointerChunkSize := by
    have literal : pointerChunkSize = 0x100000 := rfl
    rcases pointerSize_cases view.bitness with narrow | wide
    · rw [narrow] at inner ⊢
      omega
    · rw [wide] at inner ⊢
      omega
  rw [← Nat.add_assoc] at answered ⊢
  exact slotsOfChunk_mem static.attached (static.whole region listed open_) inner (by omega) answered

end PointerLab.PointerScanner
