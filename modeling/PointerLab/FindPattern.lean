import PointerLab.MemoryScanner

set_option autoImplicit false

/- What `findPattern` finds: every occurrence in the range that no unreadable byte
separates from the start of its chunk. -/
namespace PointerLab.MemoryScanner

open Domain Sweep TargetView

/-- The whole pattern lies in readable bytes at the address, and they match. -/
def occursAt (memory : Nat → Option UInt8) (pattern : HexPattern) (address : Nat) : Bool :=
  (List.range pattern.bytes.length).all fun i =>
    match memory (address + i) with
    | none => false
    | some byte => pattern.mask.getD i 0 == 0 || byte == pattern.bytes.getD i 0

/-- Every address of `[start, start + size)` at which the pattern occurs, in order. -/
def occurrences (memory : Nat → Option UInt8) (start size : Nat) (pattern : HexPattern) :
    List Nat :=
  ((List.range (size + 1 - pattern.bytes.length)).filter fun offset =>
    occursAt memory pattern (start + offset)).map (start + ·)

/-- Everything from the start of the chunk that `offset` lies in up to `offset` can be read. -/
def unbroken (memory : Nat → Option UInt8) (start offset : Nat) : Bool :=
  (List.range' (offset / chunkSize * chunkSize) (offset % chunkSize)).all fun place =>
    (memory (start + place)).isSome

variable {Epsilon : Type} (floats : Floats Epsilon)

theorem occursAt_readable {memory : Nat → Option UInt8} {pattern : HexPattern} {address : Nat}
    (occurs : occursAt memory pattern address = true) :
    ∀ index < pattern.bytes.length, memory (address + index) ≠ none := by
  intro index inside hole
  have here := List.all_eq_true.mp occurs index (List.mem_range.mpr inside)
  simp only [hole, Bool.false_eq_true] at here

theorem unbroken_iff {memory : Nat → Option UInt8} {start offset index : Nat}
    (aligned : chunkSize ∣ offset) (inside : index < chunkSize) :
    unbroken memory start (offset + index) = true ↔
      ∀ before < index, memory (start + offset + before) ≠ none := by
  obtain ⟨count, rfl⟩ := aligned
  have quotient : (chunkSize * count + index) / chunkSize = count := by
    rw [Nat.mul_add_div (by decide), Nat.div_eq_of_lt inside, Nat.add_zero]
  have remainder : (chunkSize * count + index) % chunkSize = index := by
    rw [Nat.mul_add_mod, Nat.mod_eq_of_lt inside]
  simp only [unbroken, quotient, remainder, List.all_eq_true, List.mem_range'_1,
    Option.isSome_iff_ne_none]
  constructor
  · intro all before within
    have place := all (count * chunkSize + before) (by omega)
    rwa [Nat.mul_comm count, ← Nat.add_assoc] at place
  · intro all place within
    have cell := all (place - count * chunkSize) (by omega)
    have same : start + chunkSize * count + (place - count * chunkSize) = start + place := by
      rw [Nat.mul_comm chunkSize]
      omega
    rwa [same] at cell

/-- Where the whole pattern is readable, the comparison in place is the occurrence. -/
theorem matchesExact_eq_occursAt {memory : Nat → Option UInt8} {pattern : HexPattern}
    {address : Nat}
    (whole : ∀ index < pattern.bytes.length, memory (address + index) ≠ none) :
    matchesExact floats (readable memory address pattern.bytes.length) pattern.bytes pattern.mask
        .bytes floats.zero = occursAt memory pattern address := by
  have cell (index : Nat) (inside : index < pattern.bytes.length) (byte : UInt8)
      (here : memory (address + index) = some byte) :
      (readable memory address pattern.bytes.length).getD index 0 = byte := by
    have length := readable_length whole
    have tail := @readable_drop memory address pattern.bytes.length index (by omega)
    obtain ⟨rest, left⟩ : ∃ rest, pattern.bytes.length - index = rest + 1 :=
      ⟨pattern.bytes.length - index - 1, by omega⟩
    rw [left] at tail
    simp only [readable, here] at tail
    have head := congrArg List.head? tail
    rw [List.head?_drop, List.head?_cons] at head
    rw [List.getD_eq_getElem?_getD, head, Option.getD_some]
  have plain : matchesExact floats (readable memory address pattern.bytes.length) pattern.bytes
      pattern.mask .bytes floats.zero =
        (steps pattern.bytes.length 1).all fun i =>
          pattern.mask.getD i 0 == 0 ||
            (readable memory address pattern.bytes.length).getD i 0 ==
              pattern.bytes.getD i 0 := by
    simp [matchesExact, isStringType, pattern.parallel]
  rw [plain, occursAt, Bool.eq_iff_iff, List.all_eq_true, List.all_eq_true]
  refine forall_congr' fun index => ?_
  rw [mem_steps (by omega), List.mem_range]
  constructor
  · rintro matched inside
    obtain ⟨byte, here⟩ := Option.ne_none_iff_exists'.mp (whole index inside)
    have equal := matched ⟨inside, Nat.one_dvd index⟩
    rw [cell index inside byte here] at equal
    rw [here]
    exact equal
  · rintro matched ⟨inside, _⟩
    obtain ⟨byte, here⟩ := Option.ne_none_iff_exists'.mp (whole index inside)
    have equal := matched inside
    rw [here] at equal
    rw [cell index inside byte here]
    exact equal

/-- A place of a chunk's buffer is a hit when the pattern occurs there and nothing before
it in the chunk is unreadable. -/
theorem hit_iff {memory : Nat → Option UInt8} {pattern : HexPattern}
    {start size offset index readSize : Nat} {buffer : List UInt8}
    (asked : readSize = min (min chunkSize (size - offset) + pattern.bytes.length - 1)
      (size - offset))
    (read : buffer = readable memory (start + offset) readSize)
    (nonempty : 0 < pattern.bytes.length) (aligned : chunkSize ∣ offset)
    (inChunk : index < chunkSize) :
    (index < min (min chunkSize (size - offset)) (buffer.length + 1 - pattern.bytes.length) ∧
        matchesExact floats (buffer.drop index) pattern.bytes pattern.mask .bytes floats.zero =
          true) ↔
      index < min chunkSize (size + 1 - pattern.bytes.length - offset) ∧
        (occursAt memory pattern (start + (offset + index)) &&
          unbroken memory start (offset + index)) = true := by
  have place : start + (offset + index) = start + offset + index := (Nat.add_assoc _ _ _).symm
  rw [Bool.and_eq_true, unbroken_iff aligned inChunk, place]
  subst read
  have upper := readable_length_le memory (start + offset) readSize
  have reach (last : Nat) := @lt_readable_length memory (start + offset) readSize last
  generalize read : readable memory (start + offset) readSize = buffer at *
  have cut (inside : index + pattern.bytes.length ≤ buffer.length) :
      matchesExact floats (buffer.drop index) pattern.bytes pattern.mask .bytes floats.zero =
        occursAt memory pattern (start + offset + index) := by
    have open_ := ((reach (index + pattern.bytes.length - 1)).mp (by omega)).2
    have window : (buffer.drop index).take pattern.bytes.length =
        readable memory (start + offset + index) pattern.bytes.length := by
      rw [← read, readable_drop (by rw [read]; omega), readable_take,
        Nat.min_eq_left (by omega)]
    rw [← matchesExact_take, window]
    refine matchesExact_eq_occursAt floats fun before within => ?_
    rw [Nat.add_assoc]
    exact open_ (index + before) (by omega)
  constructor
  · rintro ⟨inside, matched⟩
    have last := (reach (index + pattern.bytes.length - 1)).mp (by omega)
    refine ⟨by omega, ?_, fun before within => last.2 before (by omega)⟩
    rw [← cut (by omega)]
    exact matched
  · rintro ⟨inside, occurs, open_⟩
    have last : index + pattern.bytes.length - 1 < buffer.length := by
      refine (reach _).mpr ⟨by omega, fun before within => ?_⟩
      by_cases early : before < index
      · exact open_ before early
      · have cell := occursAt_readable occurs (before - index) (by omega)
        have same : start + offset + index + (before - index) = start + offset + before := by
          omega
        rwa [same] at cell
    refine ⟨by omega, ?_⟩
    rw [cut (by omega)]
    exact occurs

/-- What one chunk adds, as long as there is room. -/
theorem findInChunk_eq {view : TargetView} {start size : Nat} {pattern : HexPattern}
    {maxResults offset : Nat} {found : List Nat} (attached : view.attached = true)
    (nonempty : 0 < pattern.bytes.length) (aligned : chunkSize ∣ offset)
    (room : found.length ≤ maxResults) :
    findInChunk floats view start size pattern maxResults found offset =
      (found ++
        ((List.range' offset (min chunkSize (size + 1 - pattern.bytes.length - offset))).filter
          fun place => occursAt view.memory pattern (start + place) &&
            unbroken view.memory start place).map (start + ·)).take maxResults := by
  generalize asked : min (min chunkSize (size - offset) + pattern.bytes.length - 1)
    (size - offset) = readSize
  generalize read : readable view.memory (start + offset) readSize = buffer
  have hit (index : Nat) (inChunk : index < chunkSize) :=
    hit_iff floats asked.symm read.symm nonempty aligned inChunk
  -- The hits of the chunk, written with the index into its buffer.
  have hits : (steps (min (min chunkSize (size - offset))
        (buffer.length + 1 - pattern.bytes.length)) 1).filter
        (fun index => matchesExact floats (buffer.drop index) pattern.bytes pattern.mask .bytes
          floats.zero) =
      (List.range (min chunkSize (size + 1 - pattern.bytes.length - offset))).filter
        (fun index => occursAt view.memory pattern (start + (offset + index)) &&
          unbroken view.memory start (offset + index)) := by
    refine eq_of_increasing ((steps_increasing Nat.one_pos).filter _)
      (List.pairwise_lt_range.filter _) fun index => ?_
    rw [List.mem_filter, List.mem_filter, mem_steps Nat.one_pos, List.mem_range,
      and_iff_left (Nat.one_dvd index)]
    by_cases inChunk : index < chunkSize
    · exact hit index inChunk
    · constructor
      · rintro ⟨inside, _⟩
        omega
      · rintro ⟨inside, _⟩
        omega
  have shifted : List.range' offset (min chunkSize (size + 1 - pattern.bytes.length - offset)) =
      (List.range (min chunkSize (size + 1 - pattern.bytes.length - offset))).map (offset + ·) := by
    simp only [List.range_eq_range', List.map_add_range', Nat.add_zero]
  rw [shifted, List.filter_map, List.map_map]
  simp only [Function.comp_def]
  rw [← hits]
  have kept : found.take maxResults = found := List.take_of_length_le room
  unfold findInChunk
  simp only [asked]
  by_cases short : buffer.length < pattern.bytes.length
  · have noRoom : min (min chunkSize (size - offset)) (buffer.length + 1 - pattern.bytes.length) =
        0 := by omega
    have nothing : steps 0 1 = [] := rfl
    rw [noRoom, nothing, List.filter_nil, List.map_nil, List.append_nil, kept]
    rcases readBytes_cases (start + offset) readSize attached with answered | ⟨⟨_, refused⟩, _⟩
    · simp only [answered, read, short, ↓reduceIte]
    · simp only [refused]
  · have answered : readBytes view (start + offset) readSize = .ok buffer := by
      rw [← read]
      apply readBytes_eq attached
      rw [read]
      omega
    have limit : buffer.length - pattern.bytes.length + 1 =
        buffer.length + 1 - pattern.bytes.length := by omega
    simp only [answered, short, ↓reduceIte, limit]
    have regroup : (fun index => start + (offset + index)) = (start + offset + ·) :=
      funext fun index => (Nat.add_assoc start offset index).symm
    rw [untilFull_filter _ _ room, regroup]

/-- What `findPattern` returns: the occurrences that nothing unreadable separates from the
start of their chunk, up to `maxResults`. -/
theorem findPattern_eq {view : TargetView} {start size : Nat} {pattern : HexPattern}
    {maxResults : Nat} (attached : view.attached = true) (nonempty : pattern.bytes ≠ []) :
    findPattern floats view start size pattern maxResults =
      ((occurrences view.memory start size pattern).filter
        fun address => unbroken view.memory start (address - start)).take maxResults := by
  have positive : 0 < pattern.bytes.length := List.length_pos_of_ne_nil nonempty
  have listed : (occurrences view.memory start size pattern).filter
      (fun address => unbroken view.memory start (address - start)) =
      ((List.range (size + 1 - pattern.bytes.length)).filter fun place =>
        occursAt view.memory pattern (start + place) &&
          unbroken view.memory start place).map (start + ·) := by
    rw [occurrences, List.filter_map, List.filter_filter]
    simp only [Function.comp_def, Nat.add_sub_cancel_left, Bool.and_comm]
  rw [listed]
  unfold findPattern
  simp only [attached, List.isEmpty_eq_false_iff.mpr nonempty, Bool.not_true, Bool.or_false,
    Bool.false_or, decide_eq_true_eq]
  by_cases short : size < pattern.bytes.length
  · have none_ : size + 1 - pattern.bytes.length = 0 := by omega
    rw [if_pos short, none_, List.range_zero, List.filter_nil, List.map_nil, List.take_nil]
  · have total : size - pattern.bytes.length + 1 = size + 1 - pattern.bytes.length := by omega
    rw [if_neg short, total, untilFull_eq (fun offset =>
      ((List.range' offset (min chunkSize (size + 1 - pattern.bytes.length - offset))).filter
        fun place => occursAt view.memory pattern (start + place) &&
          unbroken view.memory start place).map (start + ·)) _ _ [] (Nat.zero_le _),
      List.nil_append, ← List.map_flatMap, gather (by decide)]
    intro offset inside found room
    exact findInChunk_eq floats attached positive ((mem_steps (by decide)).mp inside).2 room

/-- None of the first `maxResults` occurrences lies behind an unreadable byte of its own
chunk. -/
def Clear (memory : Nat → Option UInt8) (start size : Nat) (pattern : HexPattern)
    (maxResults : Nat) : Prop :=
  ∀ address ∈ (occurrences memory start size pattern).take maxResults,
    unbroken memory start (address - start) = true

theorem occurrences_increasing (memory : Nat → Option UInt8) (start size : Nat)
    (pattern : HexPattern) : (occurrences memory start size pattern).Pairwise (· < ·) := by
  rw [occurrences, List.pairwise_map]
  exact (List.pairwise_lt_range.filter _).imp fun less => Nat.add_lt_add_left less start

theorem mem_occurrences {memory : Nat → Option UInt8} {start size address : Nat}
    {pattern : HexPattern} :
    address ∈ occurrences memory start size pattern ↔
      start ≤ address ∧ address + pattern.bytes.length ≤ start + size ∧
        occursAt memory pattern address = true := by
  simp only [occurrences, List.mem_map, List.mem_filter, List.mem_range]
  constructor
  · rintro ⟨offset, ⟨inside, occurs⟩, rfl⟩
    exact ⟨by omega, by omega, occurs⟩
  · rintro ⟨lower, upper, occurs⟩
    have back : start + (address - start) = address := by omega
    exact ⟨address - start, ⟨by omega, back.symm ▸ occurs⟩, back⟩

end PointerLab.MemoryScanner
