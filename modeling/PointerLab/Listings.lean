import PointerLab.PrecedingInstruction

set_option autoImplicit false

/- The decode loop of `engine_disasm/Disassembler.cpp` as it is written, with its offset into the
buffer, and how the entries of a listing tile the buffer. -/
namespace PointerLab.Disassembler

open Domain TargetView

/-- A decoder that finds an instruction finds it in the bytes that are left. -/
def Decoder.Within (decoder : Decoder) : Prop :=
  ∀ bytes length, decoder.decode bytes = some length → 0 < length ∧ length ≤ bytes.length

/-- What the loop of `decodeBuffer` carries from round to round. -/
structure Listing where
  offset : Nat := 0
  instructions : List Instruction := []

section Loop

variable (decoder : Decoder) (data : List UInt8) (address instructionCount : Nat)

/-- One round. The runtime address is a sum in `uintptr_t`. -/
def decodeRound (listing : Listing) : Listing :=
  let result :=
    decodeOne decoder ((address + listing.offset) % addressSpace) (data.drop listing.offset)
  ⟨listing.offset + result.bytes.length, listing.instructions ++ [result]⟩

/-- The loop. Every round adds an entry, so it ends whatever the decoder tells. -/
def decodeRounds (listing : Listing) : List Instruction :=
  if listing.offset < data.length ∧ listing.instructions.length < instructionCount then
    decodeRounds (decodeRound decoder data address listing)
  else listing.instructions
termination_by instructionCount - listing.instructions.length
decreasing_by
  show instructionCount - (listing.instructions ++ [_]).length < _
  rw [List.length_append, List.length_singleton]
  omega

/-- `decodeBuffer`, wherever the buffer sits. -/
def listBuffer : List Instruction := decodeRounds decoder data address instructionCount {}

end Loop

/-- How many bytes `disassemble` asks for. The product is one of `size_t`. -/
def wantedSize (instructionCount : Nat) : Nat :=
  min (64 * 1024) (instructionCount * 15 % addressSpace)

/-- `Disassembler::disassemble`. -/
def disassemble (decoder : Bitness → Decoder) (view : TargetView)
    (address instructionCount : Nat) : List Instruction :=
  if instructionCount = 0 then []
  else
    match view.readBytes address (wantedSize instructionCount) with
    | .error _ => []
    | .ok buffer =>
        if buffer.isEmpty then []
        else listBuffer (decoder view.bitness) buffer address instructionCount

section Specification

variable (decode : List UInt8 → Option Nat) (data : List UInt8) (address : Nat)

/-- The bytes of the entries of a listing, one after the other. -/
def listedBytes (instructions : List Instruction) : List UInt8 :=
  instructions.flatMap fun instruction => instruction.bytes

/-- An entry stands where it is in the buffer, with the bytes that the decoder takes there or with
the one byte that it fails at. -/
structure EntryAt (offset : Nat) (instruction : Instruction) : Prop where
  placed : instruction.address = (address + offset) % addressSpace
  failed : instruction.valid = false ↔ decode (data.drop offset) = none
  single : instruction.valid = false → instruction.bytes.length = 1
  decoded : instruction.valid = true → decode (data.drop offset) = some instruction.bytes.length

/-- At most so many entries, end to end from the start of a buffer, up to its end unless there are
that many. -/
structure Tiles (instructionCount : Nat) (instructions : List Instruction) : Prop where
  few : instructions.length ≤ instructionCount
  entries : ∀ index instruction, instructions[index]? = some instruction →
    EntryAt decode data address (listedBytes (instructions.take index)).length instruction
  part : listedBytes instructions <+: data
  whole : instructions.length < instructionCount → listedBytes instructions = data

/-- The same of a listing that is not done, with the offset it has come to. -/
structure Laid (instructionCount : Nat) (listing : Listing) : Prop where
  few : listing.instructions.length ≤ instructionCount
  inside : listing.offset ≤ data.length
  covered : listedBytes listing.instructions = data.take listing.offset
  entries : ∀ index instruction, listing.instructions[index]? = some instruction →
    EntryAt decode data address (listedBytes (listing.instructions.take index)).length instruction

end Specification

variable {decoder : Decoder} {data : List UInt8} {address instructionCount : Nat}

theorem listedBytes_append (front back : List Instruction) :
    listedBytes (front ++ back) = listedBytes front ++ listedBytes back :=
  List.flatMap_append

theorem listedBytes_singleton (instruction : Instruction) :
    listedBytes [instruction] = instruction.bytes :=
  List.flatMap_singleton _ _

/-- An entry has some of the bytes that are left, and at least one. -/
theorem decodeOne_part (within : decoder.Within) {bytes : List UInt8} (some_ : 0 < bytes.length)
    (place : Nat) :
    ∃ length, 0 < length ∧ length ≤ bytes.length ∧
      (decodeOne decoder place bytes).bytes = bytes.take length := by
  cases decoded : decoder.decode bytes with
  | none =>
      have single : (decodeOne decoder place bytes).bytes = bytes.take 1 := by
        simp only [decodeOne, decoded]
      exact ⟨1, Nat.one_pos, some_, single⟩
  | some length =>
      have bounds := within bytes length decoded
      have copied := decodeOne_bytes decoded place
      rw [List.take_append_of_le_length bounds.2] at copied
      exact ⟨length, bounds.1, bounds.2, copied⟩

theorem decodeOne_entryAt {offset : Nat} (some_ : offset < data.length) :
    EntryAt decoder.decode data address offset
      (decodeOne decoder ((address + offset) % addressSpace) (data.drop offset)) := by
  have placed := @decodeOne_address decoder (data.drop offset) ((address + offset) % addressSpace)
  cases decoded : decoder.decode (data.drop offset) with
  | none =>
      have single : ((data.drop offset).take 1).length = 1 := by
        rw [List.length_take, List.length_drop]
        omega
      constructor
      · exact placed
      · simp only [decodeOne, decoded]
      · simpa only [decodeOne, decoded, true_imp_iff] using single
      · simp [decodeOne, decoded]
  | some length =>
      have valid := decodeOne_valid decoded ((address + offset) % addressSpace)
      have size := decodeOne_length decoded ((address + offset) % addressSpace)
      constructor
      · exact placed
      · simp [valid, decoded]
      · simp [valid]
      · intro _
        rw [size, decoded]

theorem Laid.start (decode : List UInt8 → Option Nat) (data : List UInt8)
    (address instructionCount : Nat) : Laid decode data address instructionCount {} where
  few := Nat.zero_le _
  inside := Nat.zero_le _
  covered := rfl
  entries index instruction inside := by simp at inside

/-- The entries so far end at the offset. -/
theorem Laid.length {decode : List UInt8 → Option Nat} {listing : Listing}
    (laid : Laid decode data address instructionCount listing) :
    (listedBytes listing.instructions).length = listing.offset := by
  rw [laid.covered, List.length_take]
  exact Nat.min_eq_left laid.inside

/-- What one round keeps. -/
theorem Laid.round (within : decoder.Within) {listing : Listing}
    (laid : Laid decoder.decode data address instructionCount listing)
    (left : listing.offset < data.length)
    (more : listing.instructions.length < instructionCount) :
    Laid decoder.decode data address instructionCount
      (decodeRound decoder data address listing) := by
  have rest : 0 < (data.drop listing.offset).length := by
    rw [List.length_drop]
    omega
  obtain ⟨length, positive, short, part⟩ :=
    decodeOne_part within rest ((address + listing.offset) % addressSpace)
  have size : (decodeOne decoder ((address + listing.offset) % addressSpace)
      (data.drop listing.offset)).bytes.length = length := by
    rw [part, List.length_take]
    exact Nat.min_eq_left short
  rw [List.length_drop] at short
  constructor
  · show (listing.instructions ++ [_]).length ≤ instructionCount
    rw [List.length_append, List.length_singleton]
    omega
  · show listing.offset + _ ≤ data.length
    rw [size]
    omega
  · show listedBytes (listing.instructions ++ [_]) = data.take (listing.offset + _)
    rw [listedBytes_append, listedBytes_singleton, laid.covered, size, part, List.take_add]
  · intro index instruction found
    have found' : (listing.instructions ++ [decodeOne decoder
        ((address + listing.offset) % addressSpace) (data.drop listing.offset)])[index]? =
          some instruction := found
    show EntryAt _ _ _ (listedBytes ((listing.instructions ++ [_]).take index)).length _
    by_cases earlier : index < listing.instructions.length
    · rw [List.getElem?_append_left earlier] at found'
      rw [List.take_append_of_le_length (Nat.le_of_lt earlier)]
      exact laid.entries index instruction found'
    · rw [List.getElem?_append_right (Nat.le_of_not_lt earlier),
        List.getElem?_singleton] at found'
      split at found'
      · rename_i last
        rw [← Option.some.inj found',
          List.take_append_of_le_length (by omega),
          List.take_of_length_le (by omega), laid.length]
        exact decodeOne_entryAt left
      · contradiction

/-- The loop ends with a listing that tiles the buffer. -/
theorem Laid.tiles (within : decoder.Within) {listing : Listing}
    (laid : Laid decoder.decode data address instructionCount listing) :
    Tiles decoder.decode data address instructionCount
      (decodeRounds decoder data address instructionCount listing) := by
  fun_induction decodeRounds decoder data address instructionCount listing with
  | case1 listing more ih => exact ih (laid.round within more.1 more.2)
  | case2 listing stopped =>
      refine ⟨laid.few, laid.entries, ?_, ?_⟩
      · rw [laid.covered]
        exact List.take_prefix _ _
      · intro room
        have ended : data.length ≤ listing.offset := by omega
        rw [laid.covered, List.take_of_length_le ended]

theorem decodeBuffer_zero (bytes : List UInt8) (place : Nat) :
    decodeBuffer decoder 0 bytes place = [] := by
  cases bytes <;> rfl

theorem decodeBuffer_nil (count place : Nat) : decodeBuffer decoder count [] place = [] := by
  cases count <;> rfl

theorem decodeBuffer_succ {bytes : List UInt8} (some_ : 0 < bytes.length) (count place : Nat) :
    decodeBuffer decoder (count + 1) bytes place =
      decodeOne decoder place bytes ::
        decodeBuffer decoder count (bytes.drop (decodeOne decoder place bytes).bytes.length)
          (place + (decodeOne decoder place bytes).bytes.length) := by
  cases bytes with
  | nil => contradiction
  | cons byte rest => rfl

/-- Where the addresses of a buffer do not wrap around, the loop adds the listing of what is left
of it. -/
theorem decodeRounds_eq (within : decoder.Within) (room : address + data.length ≤ addressSpace)
    {listing : Listing} (inside : listing.offset ≤ data.length) :
    decodeRounds decoder data address instructionCount listing =
      listing.instructions ++
        decodeBuffer decoder (instructionCount - listing.instructions.length)
          (data.drop listing.offset) (address + listing.offset) := by
  fun_induction decodeRounds decoder data address instructionCount listing with
  | case1 listing more ih =>
      have left : 0 < (data.drop listing.offset).length := by
        rw [List.length_drop]
        omega
      have placed : (address + listing.offset) % addressSpace = address + listing.offset := by
        apply Nat.mod_eq_of_lt
        omega
      obtain ⟨count, remaining⟩ :
          ∃ count, instructionCount - listing.instructions.length = count + 1 :=
        ⟨instructionCount - listing.instructions.length - 1, by omega⟩
      have fewer : instructionCount - (listing.instructions.length + 1) = count := by omega
      obtain ⟨length, positive, short, part⟩ :=
        decodeOne_part within left (address + listing.offset)
      have size : (decodeOne decoder (address + listing.offset)
          (data.drop listing.offset)).bytes.length ≤ data.length - listing.offset := by
        rw [part, List.length_take, ← List.length_drop]
        exact Nat.min_le_right _ _
      rw [ih]
      · simp only [decodeRound, placed]
        rw [List.length_append, List.length_singleton, fewer, remaining, decodeBuffer_succ left,
          List.drop_drop, Nat.add_assoc, List.append_assoc, List.singleton_append]
      · show listing.offset + _ ≤ data.length
        rw [placed]
        omega
  | case2 listing stopped =>
      by_cases ended : data.length ≤ listing.offset
      · rw [List.drop_eq_nil_of_le ended, decodeBuffer_nil, List.append_nil]
      · have full : instructionCount - listing.instructions.length = 0 := by omega
        rw [full, decodeBuffer_zero, List.append_nil]

theorem listBuffer_eq (within : decoder.Within) (room : address + data.length ≤ addressSpace) :
    listBuffer decoder data address instructionCount =
      decodeBuffer decoder instructionCount data address :=
  decodeRounds_eq within room (Nat.zero_le _)

/-- For every decoder of the bytes that are left, a listing tiles its buffer. -/
theorem listBuffer_tiles (decoder : Decoder) (within : decoder.Within) (data : List UInt8)
    (address instructionCount : Nat) :
    Tiles decoder.decode data address instructionCount
      (listBuffer decoder data address instructionCount) :=
  (Laid.start decoder.decode data address instructionCount).tiles within

theorem within_nops : nops.Within := by
  intro bytes length decoded
  cases bytes with
  | nil => contradiction
  | cons byte rest =>
      simp only [nops] at decoded
      split at decoded
      · rw [← Option.some.inj decoded, List.length_cons]
        omega
      · contradiction

/-- Two of three entries, the second of them at address 0. -/
theorem listBuffer_tiles_wrapped :
    Tiles nops.decode [0x90, 0xFF, 0x90] 0xFFFFFFFFFFFFFFFF 2
      (listBuffer nops [0x90, 0xFF, 0x90] 0xFFFFFFFFFFFFFFFF 2) :=
  listBuffer_tiles nops within_nops _ _ _

theorem Tiles.nil (decode : List UInt8 → Option Nat) (address instructionCount : Nat) :
    Tiles decode [] address instructionCount [] where
  few := Nat.zero_le _
  entries index instruction inside := by simp at inside
  part := List.nil_prefix
  whole _ := rfl

/-- What `disassemble` returns tiles the bytes that its one read sees. -/
theorem disassemble_tiles {decoder : Bitness → Decoder}
    (within : ∀ bitness, (decoder bitness).Within) (view : TargetView)
    (address instructionCount : Nat) :
    Tiles (decoder view.bitness).decode
      (readable (shown view) address (wantedSize instructionCount)) address instructionCount
      (disassemble decoder view address instructionCount) := by
  rw [disassemble]
  by_cases attached : view.attached = true
  · rw [shown_eq attached]
    split
    · rename_i none_
      rw [none_]
      exact Tiles.nil _ _ _
    · cases readBytes_cases address (wantedSize instructionCount) attached with
      | inl answered =>
          rw [answered]
          dsimp only
          split
          · rename_i empty
            rw [List.isEmpty_iff.mp empty]
            exact Tiles.nil _ _ _
          · exact listBuffer_tiles _ (within view.bitness) _ _ _
      | inr refused =>
          obtain ⟨⟨failure, answered⟩, nothing⟩ := refused
          rw [answered, nothing]
          exact Tiles.nil _ _ _
  · have nothing (size : Nat) : readable (shown view) address size = [] := by
      cases size with
      | zero => rfl
      | succ size => simp only [readable, shown, if_neg attached]
    have refused (size : Nat) :
        view.readBytes address size = fail "No target process attached." := by
      simp [readBytes, attached]
    rw [nothing, refused, fail, ite_self]
    exact Tiles.nil _ _ _

end PointerLab.Disassembler
