import PointerLab.AutoAssemblerRun

set_option autoImplicit false

/- `engine_disasm/Disassembler.cpp`: which patches over code are padded to the end of an
instruction. -/
namespace PointerLab.AutoAssembler

open Domain Sweep TargetView

/-- An instruction has 1 to 15 bytes, and a decoder looks at no more of them. -/
structure Decodes (decode : List UInt8 → Option Nat) : Prop where
  bounded : ∀ bytes length, decode bytes = some length → 1 ≤ length ∧ length ≤ 15
  window : ∀ bytes, decode (bytes.take 15) = decode bytes

section Listings

variable (env : Env) (memory : Nat → UInt8) (address : Nat)

/-- The length of what a listing has at an offset: of the instruction there, or of one byte of
data. -/
def listedLength (offset : Nat) : Nat :=
  (env.decode env.bitness (readable (env.view 0 memory).memory (address + offset) 15)).getD 1

/-- The boundaries of the listing from an address, as offsets. -/
def boundary (count : Nat) : Nat := offset (listedLength env memory address) count

/-- A patch with nops behind it up to the first boundary at or after its end. -/
structure PaddedTo (patch result : List UInt8) : Prop where
  ends : ∃ count, patch.length ≤ boundary env memory address count ∧
    (∀ earlier < count, boundary env memory address earlier < patch.length) ∧
      result = patch ++ List.replicate (boundary env memory address count - patch.length) 0x90
  /-- No instruction of the listing is cut by the end of the result. -/
  whole : ∀ count, ¬(boundary env memory address count < result.length ∧
    result.length < boundary env memory address (count + 1))

/-- The first 32 instructions reach the end of a patch, or it ends at a boundary anyway. -/
def WithinReach (size : Nat) : Prop :=
  size ≤ boundary env memory address 32 ∨ ∃ count, boundary env memory address count = size

end Listings

theorem coveredLength_of_le {size covered : Nat} (done : size ≤ covered) (lengths : List Nat) :
    coveredLength size covered lengths = some covered := by
  cases lengths with
  | nil => rfl
  | cons length rest => rw [coveredLength, if_pos done]

variable {env : Env} {memory : Nat → UInt8} {address : Nat}

theorem listedLength_bounds (decodes : Decodes (env.decode env.bitness)) (offset : Nat) :
    0 < listedLength env memory address offset ∧ listedLength env memory address offset ≤ 15 := by
  unfold listedLength
  cases decoded : env.decode env.bitness
      (readable (env.view 0 memory).memory (address + offset) 15) with
  | none => exact ⟨Nat.one_pos, by decide⟩
  | some length => exact decodes.bounded _ length decoded

theorem boundary_not_between (decodes : Decodes (env.decode env.bitness)) (count other : Nat) :
    ¬(boundary env memory address other < boundary env memory address count ∧
      boundary env memory address count < boundary env memory address (other + 1)) :=
  offset_not_between (fun place => (listedLength_bounds decodes place).1) count other

/-- What has been read for a listing tells the instruction at its start as the target does. -/
theorem instructionLengths_readable (decodes : Decodes (env.decode env.bitness))
    {place room : Nat} (enough : 15 ≤ room)
    (here : (env.view 0 memory).memory (address + place) ≠ none) (count : Nat) :
    let buffer := readable (env.view 0 memory).memory (address + place) room
    instructionLengths (env.decode env.bitness) (count + 1) buffer =
      listedLength env memory address place ::
        instructionLengths (env.decode env.bitness) count
          (buffer.drop (listedLength env memory address place)) := by
  intro buffer
  have first : (env.decode env.bitness buffer).getD 1 = listedLength env memory address place := by
    unfold listedLength
    rw [← decodes.window, readable_take, Nat.min_eq_left enough]
  have some_ : 0 < buffer.length := readable_pos (by omega) here
  cases shape : buffer with
  | nil =>
      rw [shape] at some_
      contradiction
  | cons byte rest => rw [instructionLengths, ← shape, first]

/-- The loop over a listing, from a boundary on: it stops at the first boundary at or after the
end of the patch, or when it has had all its instructions. An instruction takes at most 15 of the
bytes that have been read, so those behind it are enough for the rest. -/
theorem coveredLength_boundary (decodes : Decodes (env.decode env.bitness)) {size : Nat}
    (open_ : ∀ offset < size, (env.view 0 memory).memory (address + offset) ≠ none)
    {count start room : Nat} (enough : count * 15 ≤ room) :
    ∃ last, start ≤ last ∧ last ≤ start + count ∧
      coveredLength size (boundary env memory address start)
          (instructionLengths (env.decode env.bitness) count
            (readable (env.view 0 memory).memory
              (address + boundary env memory address start) room)) =
        some (boundary env memory address last) ∧
      (∀ earlier, start ≤ earlier → earlier < last →
        boundary env memory address earlier < size) ∧
      (size ≤ boundary env memory address last ∨ last = start + count) := by
  induction count generalizing start room with
  | zero =>
      refine ⟨start, Nat.le_refl _, Nat.le_refl _, ?_, fun earlier above below => ?_, Or.inr rfl⟩
      · rw [instructionLengths]
        rfl
      · omega
  | succ count ih =>
      by_cases done : size ≤ boundary env memory address start
      · exact ⟨start, Nat.le_refl _, Nat.le_add_right _ _, coveredLength_of_le done _,
          fun earlier above below => absurd below (Nat.not_lt_of_le above), Or.inl done⟩
      · have next : boundary env memory address (start + 1) =
            boundary env memory address start +
              listedLength env memory address (boundary env memory address start) := rfl
        obtain ⟨positive, short⟩ :
            0 < listedLength env memory address (boundary env memory address start) ∧
              listedLength env memory address (boundary env memory address start) ≤ 15 :=
          listedLength_bounds decodes _
        rw [instructionLengths_readable decodes (by omega) (open_ _ (Nat.lt_of_not_le done)),
          coveredLength, if_neg done, if_neg (Nat.ne_of_gt positive), ← next]
        by_cases passed : size ≤ boundary env memory address (start + 1)
        · refine ⟨start + 1, Nat.le_succ _, by omega, coveredLength_of_le passed _,
            fun earlier above below => ?_, Or.inl passed⟩
          rw [Nat.le_antisymm (Nat.le_of_lt_succ below) above]
          exact Nat.lt_of_not_le done
        · have read : listedLength env memory address (boundary env memory address start) ≤
              (readable (env.view 0 memory).memory
                (address + boundary env memory address start) room).length := by
            have whole : listedLength env memory address (boundary env memory address start) - 1 <
                (readable (env.view 0 memory).memory
                  (address + boundary env memory address start) room).length := by
              refine lt_readable_length.mpr ⟨by omega, fun before within => ?_⟩
              rw [Nat.add_assoc]
              exact open_ _ (by omega)
            omega
          rw [readable_drop read, Nat.add_assoc, ← next]
          obtain ⟨last, later, within, covers, before, stops⟩ := @ih (start + 1)
            (room - listedLength env memory address (boundary env memory address start)) (by omega)
          refine ⟨last, Nat.le_of_succ_le later, by omega, covers, fun earlier above below => ?_,
            by omega⟩
          by_cases first : earlier = start
          · rw [first]
            exact Nat.lt_of_not_le done
          · exact before earlier (by omega) below

/-- Over readable code a patch comes back with nops up to a boundary of the listing: the first at
or after its end, or the one that 32 instructions come to. -/
theorem padToInstructionBoundary_eq (decodes : Decodes (env.decode env.bitness))
    (attached : env.attached = true) {patch : List UInt8}
    (open_ : ∀ offset < patch.length, (env.view 0 memory).memory (address + offset) ≠ none) :
    ∃ last ≤ 32, padToInstructionBoundary env memory address patch =
        patch ++ List.replicate (boundary env memory address last - patch.length) 0x90 ∧
      (∀ earlier < last, boundary env memory address earlier < patch.length) ∧
      (patch.length ≤ boundary env memory address last ∨ last = 32) := by
  unfold padToInstructionBoundary
  cases patch with
  | nil =>
      exact ⟨0, by decide, rfl, fun earlier below => absurd below (Nat.not_lt_zero _),
        Or.inl (Nat.le_refl _)⟩
  | cons byte rest =>
      have here : (env.view 0 memory).memory (address + 0) ≠ none := open_ 0 (Nat.succ_pos _)
      have read : (env.view 0 memory).readBytes address (32 * 15) =
          .ok (readable (env.view 0 memory).memory address (32 * 15)) :=
        readBytes_eq attached (readable_pos (by decide) here)
      obtain ⟨last, _, most, covers, before, stops⟩ :=
        @coveredLength_boundary env memory address decodes _ open_ 32 0 (32 * 15) (Nat.le_refl _)
      rw [Nat.zero_add] at most stops
      refine ⟨last, most, ?_, fun earlier below => before earlier (Nat.zero_le _) below, stops⟩
      have begins : boundary env memory address 0 = 0 := rfl
      rw [begins, Nat.add_zero] at covers
      rw [attached, read]
      simp only [List.isEmpty_cons, Bool.not_true, Bool.or_false, Bool.false_eq_true, ↓reduceIte]
      rw [covers]

theorem paddedTo_boundary (decodes : Decodes (env.decode env.bitness)) {patch : List UInt8}
    {count : Nat} (reaches : patch.length ≤ boundary env memory address count)
    (before : ∀ earlier < count, boundary env memory address earlier < patch.length) :
    PaddedTo env memory address patch
      (patch ++ List.replicate (boundary env memory address count - patch.length) 0x90) := by
  have ends : (patch ++ List.replicate
      (boundary env memory address count - patch.length) 0x90).length =
        boundary env memory address count := by
    rw [List.length_append, List.length_replicate]
    omega
  refine ⟨⟨count, reaches, before, rfl⟩, fun other => ?_⟩
  rw [ends]
  exact boundary_not_between decodes count other

/-- A patch over readable code is padded to the first boundary of the listing at or after its end
just when the first 32 instructions reach that far, or it ends at a boundary anyway. -/
theorem padToInstructionBoundary_iff (decodes : Decodes (env.decode env.bitness))
    (attached : env.attached = true) {patch : List UInt8}
    (open_ : ∀ offset < patch.length, (env.view 0 memory).memory (address + offset) ≠ none) :
    PaddedTo env memory address patch (padToInstructionBoundary env memory address patch) ↔
      WithinReach env memory address patch.length := by
  have ordered : StrictMono (boundary env memory address) :=
    offset_strictMono fun place => (listedLength_bounds decodes place).1
  obtain ⟨last, most, result, before, stops⟩ := padToInstructionBoundary_eq decodes attached open_
  rw [result]
  by_cases reaches : patch.length ≤ boundary env memory address last
  · have within : WithinReach env memory address patch.length :=
      Or.inl (Nat.le_trans reaches (ordered.monotone most))
    exact iff_of_true (paddedTo_boundary decodes reaches before) within
  · -- the patch comes back as it was
    have nothing : boundary env memory address last - patch.length = 0 := by omega
    have stopped : last = 32 := stops.resolve_left reaches
    rw [nothing]
    constructor
    · intro padded
      obtain ⟨count, past, _, same⟩ := padded.ends
      have lengths := congrArg List.length (List.append_cancel_left same)
      rw [List.length_replicate, List.length_replicate] at lengths
      exact Or.inr ⟨count, by omega⟩
    · intro within
      cases within with
      | inl reached => exact absurd (stopped ▸ reached) reaches
      | inr ending =>
          obtain ⟨count, ends⟩ := ending
          have padded := @paddedTo_boundary env memory address decodes patch count
            (Nat.le_of_eq ends.symm) fun earlier below => ends ▸ ordered below
          rw [ends, Nat.sub_self] at padded
          exact padded

/-- `90` is a nop, and so is `66 90`. -/
def nopLength (bytes : List UInt8) : Option Nat :=
  if bytes.take 2 = [0x66, 0x90] then some 2
  else if bytes.take 1 = [0x90] then some 1
  else none

theorem decodes_nopLength : Decodes nopLength := by
  constructor
  · intro bytes length decoded
    unfold nopLength at decoded
    split at decoded
    · cases decoded
      decide
    · split at decoded
      · cases decoded
        decide
      · cases decoded
  · intro bytes
    unfold nopLength
    rw [List.take_take, List.take_take]
    rfl

def nopBench : Env := { bench with decode := fun _ => nopLength }

/-- One of the nops has two bytes. -/
def nops : Nat → UInt8 := fun place => if place = 0x1020 then 0x66 else 0x90

theorem int3_padded :
    padToInstructionBoundary nopBench nops 0x1020 [0xCC] = [0xCC, 0x90] ∧
      PaddedTo nopBench nops 0x1020 [0xCC]
        (padToInstructionBoundary nopBench nops 0x1020 [0xCC]) := by
  have ordered : StrictMono (boundary nopBench nops 0x1020) :=
    offset_strictMono fun place => (listedLength_bounds decodes_nopLength place).1
  have within : WithinReach nopBench nops 0x1020 [(0xCC : UInt8)].length :=
    Or.inl (Nat.succ_le_of_lt (ordered (by decide : 0 < 32)))
  have open_ : ∀ offset < [(0xCC : UInt8)].length,
      (nopBench.view 0 nops).memory (0x1020 + offset) ≠ none := by
    intro offset _ closed
    cases closed
  exact ⟨by decide, (padToInstructionBoundary_iff decodes_nopLength rfl open_).mpr within⟩

/-- Behind 33 bytes over 32 nops of one byte, half of a nop of two is left. -/
theorem longPatch_cuts :
    padToInstructionBoundary nopBench nops 0x1000 (List.replicate 33 0xCC) =
        List.replicate 33 0xCC ∧
      ¬PaddedTo nopBench nops 0x1000 (List.replicate 33 0xCC)
        (padToInstructionBoundary nopBench nops 0x1000 (List.replicate 33 0xCC)) := by
  have result : padToInstructionBoundary nopBench nops 0x1000 (List.replicate 33 0xCC) =
      List.replicate 33 0xCC := by decide
  have single : ∀ place < 32, listedLength nopBench nops 0x1000 place = 1 := by decide
  have counted (count : Nat) (within : count ≤ 32) :
      boundary nopBench nops 0x1000 count = count := by
    induction count with
    | zero => rfl
    | succ count ih =>
        have before : boundary nopBench nops 0x1000 count = count := ih (Nat.le_of_succ_le within)
        have next : boundary nopBench nops 0x1000 (count + 1) =
            boundary nopBench nops 0x1000 count +
              listedLength nopBench nops 0x1000 (boundary nopBench nops 0x1000 count) := rfl
        rw [next, before, single count within]
  have next : boundary nopBench nops 0x1000 33 = 34 := by
    have last : boundary nopBench nops 0x1000 33 =
        boundary nopBench nops 0x1000 32 +
          listedLength nopBench nops 0x1000 (boundary nopBench nops 0x1000 32) := rfl
    rw [last, counted 32 (Nat.le_refl _)]
    decide
  refine ⟨result, fun padded => padded.whole 32 ?_⟩
  rw [result, next, counted 32 (Nat.le_refl _), List.length_replicate]
  decide

end PointerLab.AutoAssembler
