import Mathlib.Data.List.FinRange
import PointerLab.DebugPump

set_option autoImplicit false

/- DR0-DR3 and DR7 read back the way the processor reads them, beside what
`writeDebugRegisters` puts there. -/
namespace PointerLab.DebugPump

open Domain Std

/-- Two bits of DR7. -/
def field (control : BitVec 64) (offset : Nat) : BitVec 64 := control >>> offset &&& 0b11

/-- What a debug register traps. DR7 can also ask for I/O accesses, which no breakpoint does. -/
structure Watch where
  address : Nat
  kind : Option BreakpointKind
  length : Nat
  deriving DecidableEq, Repr

def kindOfBits (bits : BitVec 64) : Option BreakpointKind :=
  if bits = 0b00 then some .hardwareExecute
  else if bits = 0b01 then some .hardwareWrite
  else if bits = 0b11 then some .hardwareReadWrite
  else none

def lengthOfBits (bits : BitVec 64) : Nat :=
  if bits = 0b00 then 1 else if bits = 0b01 then 2 else if bits = 0b10 then 8 else 4

/-- A slot is disabled when neither its local nor its global enable bit is set. -/
def decodeSlot (context : ThreadContext) (slot : Fin 4) : Option Watch :=
  let control := context.debugControl
  if field control (slot.val * 2) = 0 then none
  else
    some
      { address := context.debugAddress slot
        kind := kindOfBits (field control (16 + slot.val * 4))
        length := lengthOfBits (field control (18 + slot.val * 4)) }

/-- The three places in DR7 that belong to a slot. -/
def places (slot : Fin 4) : List Nat :=
  [slot.val * 2, 16 + slot.val * 4, 18 + slot.val * 4]

/-- What `writeDebugRegisters` puts into DR7 for one entry. -/
def slotBits (slot : Fin 4) (info : BreakpointInfo) : BitVec 64 :=
  1 <<< (slot.val * 2) ||| readWriteBits info.kind <<< (16 + slot.val * 4) |||
    lengthBits info.length <<< (18 + slot.val * 4)

/-- An entry that `writeDebugRegisters` programs into a slot. -/
def OnSlot (slot : Fin 4) (entry : Nat × BreakpointInfo) : Prop :=
  isHardware entry.2.kind = true ∧ entry.2.enabled = true ∧ entry.2.slot = some slot

instance (slot : Fin 4) (entry : Nat × BreakpointInfo) : Decidable (OnSlot slot entry) :=
  inferInstanceAs (Decidable (_ ∧ _))

/-- One round of the loop of `writeDebugRegisters`. -/
def armEntry (registers : (Fin 4 → Nat) × BitVec 64) (entry : Nat × BreakpointInfo) :
    (Fin 4 → Nat) × BitVec 64 :=
  match entry.2.slot with
  | none => registers
  | some slot =>
      if isHardware entry.2.kind && entry.2.enabled then
        (fun other => if other = slot then entry.1 else registers.1 other,
          registers.2 ||| 1 <<< (slot.val * 2) |||
            readWriteBits entry.2.kind <<< (16 + slot.val * 4) |||
              lengthBits entry.2.length <<< (18 + slot.val * 4))
      else registers

theorem debugRegisters_eq (s : Pump) :
    debugRegisters s = s.breakpoints.toList.foldl armEntry (fun _ => 0, 0) := rfl

theorem field_or (left right : BitVec 64) (offset : Nat) :
    field (left ||| right) offset = field left offset ||| field right offset := by
  simp only [field, BitVec.ushiftRight_or_distrib, BitVec.and_or_distrib_right]

/-- The two-bit codes. -/
def codes : List (BitVec 64) := [0b00, 0b01, 0b10, 0b11]

theorem readWriteBits_mem (kind : BreakpointKind) : readWriteBits kind ∈ codes := by
  cases kind <;> decide

theorem lengthBits_mem (length : Nat) : lengthBits length ∈ codes := by
  unfold lengthBits
  split <;> decide

/-- What is read at a place of some slot, when codes were put into this one. -/
def expected (slot other : Fin 4) (access length : BitVec 64) (place : Nat) : BitVec 64 :=
  if slot = other then
    if place = slot.val * 2 then 1 else if place = 16 + slot.val * 4 then access else length
  else 0

theorem field_codes_all :
    (codes.all fun access => codes.all fun length => (List.finRange 4).all fun slot =>
      (List.finRange 4).all fun other => (places other).all fun place =>
        field (1 <<< (slot.val * 2) ||| access <<< (16 + slot.val * 4) |||
          length <<< (18 + slot.val * 4)) place == expected slot other access length place) = true := by
  decide +kernel

/-- Codes put into one slot are read back from it, and nothing of them from another. -/
theorem field_slotBits (slot other : Fin 4) (info : BreakpointInfo) :
    ∀ place ∈ places other, field (slotBits slot info) place =
      expected slot other (readWriteBits info.kind) (lengthBits info.length) place := by
  have every := field_codes_all
  simp only [List.all_eq_true, beq_iff_eq] at every
  exact every _ (readWriteBits_mem info.kind) _ (lengthBits_mem info.length) slot
    (List.mem_finRange slot) other (List.mem_finRange other)

/-- What two ways of setting the registers have in common on a slot. -/
structure SameSlot (slot : Fin 4) (first second : (Fin 4 → Nat) × BitVec 64) : Prop where
  address : first.1 slot = second.1 slot
  control : ∀ place ∈ places slot, field first.2 place = field second.2 place

/-- The registers show an entry on its slot. -/
structure ShowsEntry (slot : Fin 4) (entry : Nat × BreakpointInfo)
    (registers : (Fin 4 → Nat) × BitVec 64) : Prop where
  address : registers.1 slot = entry.1
  control : ∀ place ∈ places slot, field registers.2 place = field (slotBits slot entry.2) place

variable {slot : Fin 4} {entry other : Nat × BreakpointInfo}
  {registers : (Fin 4 → Nat) × BitVec 64}

/-- A round leaves the slots alone that its entry is not on. -/
theorem armEntry_off (off : ¬ OnSlot slot other) :
    SameSlot slot (armEntry registers other) registers := by
  unfold armEntry
  cases taken : other.2.slot with
  | none => exact ⟨rfl, fun _ _ => rfl⟩
  | some place_ =>
      dsimp only
      split
      · rename_i armed
        obtain ⟨hardware, enabled⟩ := Bool.and_eq_true_iff.mp armed
        have apart : place_ ≠ slot := by
          rintro rfl
          exact off ⟨hardware, enabled, taken⟩
        refine ⟨if_neg (Ne.symm apart), fun place inside => ?_⟩
        have clear := field_slotBits place_ slot other.2 place inside
        rw [expected, if_neg apart, slotBits] at clear
        rw [BitVec.or_assoc, BitVec.or_assoc, field_or, ← BitVec.or_assoc, clear]
        exact BitVec.or_zero
      · exact ⟨rfl, fun _ _ => rfl⟩

/-- A round of an entry on a slot puts it there, over whatever was there. -/
theorem armEntry_on (on : OnSlot slot entry) :
    (armEntry registers entry).1 slot = entry.1 ∧ ∀ place ∈ places slot,
      field (armEntry registers entry).2 place =
        field registers.2 place ||| field (slotBits slot entry.2) place := by
  obtain ⟨hardware, enabled, taken⟩ := on
  simp only [armEntry, taken, hardware, enabled, Bool.and_self, ↓reduceIte, true_and]
  intro place inside
  rw [slotBits, BitVec.or_assoc, BitVec.or_assoc, field_or, ← BitVec.or_assoc]

theorem foldl_armEntry_off {entries : List (Nat × BreakpointInfo)}
    (off : ∀ other ∈ entries, ¬ OnSlot slot other) :
    SameSlot slot (entries.foldl armEntry registers) registers := by
  induction entries generalizing registers with
  | nil => exact ⟨rfl, fun _ _ => rfl⟩
  | cons first rest ih =>
      have here := @armEntry_off slot first registers (off first List.mem_cons_self)
      have later : SameSlot slot ((first :: rest).foldl armEntry registers)
          (armEntry registers first) :=
        ih fun other inRest => off other (List.mem_cons_of_mem _ inRest)
      exact ⟨later.address.trans here.address,
        fun place inside => (later.control place inside).trans (here.control place inside)⟩

/-- The only entry on a slot is what the loop leaves there. -/
theorem foldl_armEntry_on {entries : List (Nat × BreakpointInfo)} (on : OnSlot slot entry)
    (inside : entry ∈ entries) (only : ∀ other ∈ entries, OnSlot slot other → other = entry)
    (clear : ∀ place ∈ places slot,
      field registers.2 place = 0 ∨ field registers.2 place = field (slotBits slot entry.2) place) :
    ShowsEntry slot entry (entries.foldl armEntry registers) := by
  induction entries generalizing registers with
  | nil => contradiction
  | cons first rest ih =>
      have later : ∀ other ∈ rest, OnSlot slot other → other = entry :=
        fun other inRest => only other (List.mem_cons_of_mem _ inRest)
      rw [List.foldl_cons]
      by_cases same : first = entry
      · subst same
        obtain ⟨address, control⟩ := @armEntry_on slot first registers on
        have shown : ∀ place ∈ places slot,
            field (armEntry registers first).2 place = field (slotBits slot first.2) place := by
          intro place here
          rw [control place here]
          rcases clear place here with zero | equal
          · rw [zero]
            exact BitVec.zero_or
          · rw [equal, BitVec.or_self]
        by_cases again : first ∈ rest
        · exact ih again later fun place here => Or.inr (shown place here)
        · have off := @foldl_armEntry_off slot (armEntry registers first) rest
            fun other inRest onSlot => again (later other inRest onSlot ▸ inRest)
          exact ⟨off.address.trans address,
            fun place here => (off.control place here).trans (shown place here)⟩
      · have off := @armEntry_off slot first registers
          fun onSlot => same (only first List.mem_cons_self onSlot)
        refine ih ((List.mem_cons.mp inside).resolve_left (Ne.symm same)) later fun place here => ?_
        rw [off.control place here]
        exact clear place here

theorem low_places :
    ((List.finRange 4).all fun slot => (places slot).all fun place =>
      (0xFFFFFFFF : BitVec 64) >>> place &&& 0b11 == 0b11) = true := by
  decide +kernel

/-- Every slot has its places in the low half of DR7, which is all a WOW64 context keeps. -/
theorem field_low (control : BitVec 64) (slot : Fin 4) :
    ∀ place ∈ places slot, field (control &&& 0xFFFFFFFF) place = field control place := by
  intro place inside
  have every := low_places
  simp only [List.all_eq_true, beq_iff_eq] at every
  have low := every slot (List.mem_finRange slot) place inside
  rw [field, BitVec.ushiftRight_and_distrib, BitVec.and_assoc, low, field]

theorem kindOfBits_readWriteBits {kind : BreakpointKind} (hardware : isHardware kind = true) :
    kindOfBits (readWriteBits kind) = some kind := by
  cases kind with
  | software => contradiction
  | hardwareExecute => rfl
  | hardwareWrite => rfl
  | hardwareReadWrite => rfl

theorem lengthOfBits_lengthBits {length : Nat} (valid : isValidWatchLength length = true) :
    lengthOfBits (lengthBits length) = length := by
  simp only [isValidWatchLength, Bool.or_eq_true, beq_iff_eq] at valid
  rcases valid with ((rfl | rfl) | rfl) | rfl <;> rfl

/-- The watch an entry of the table asks for. -/
def watchOf (entry : Nat × BreakpointInfo) : Watch := ⟨entry.1, some entry.2.kind, entry.2.length⟩

/-- A hardware entry that fits the registers of the target's width. -/
structure Fits (wow64 : Bool) (entry : Nat × BreakpointInfo) : Prop where
  enabled : entry.2.enabled = true
  slot : entry.2.slot ≠ none
  length : isValidWatchLength entry.2.length = true
  reach : wow64 = true → entry.1 < 0x100000000

theorem decodeSlot_shown {wow64 : Bool} (context : ThreadContext) (on : OnSlot slot entry)
    (fits : Fits wow64 entry) (shows : ShowsEntry slot entry registers) :
    decodeSlot (context.programDebugRegisters wow64 registers.1 registers.2) slot =
      some (watchOf entry) := by
  have control : ∀ place ∈ places slot,
      field (context.programDebugRegisters wow64 registers.1 registers.2).debugControl place =
        expected slot slot (readWriteBits entry.2.kind) (lengthBits entry.2.length) place := by
    intro place inside
    rw [← field_slotBits slot slot entry.2 place inside, ← shows.control place inside]
    unfold ThreadContext.programDebugRegisters
    cases wow64 with
    | false => rfl
    | true => exact field_low registers.2 slot place inside
  have address : (context.programDebugRegisters wow64 registers.1 registers.2).debugAddress slot =
      entry.1 := by
    show ThreadContext.narrowed wow64 (registers.1 slot) = entry.1
    rw [shows.address, ThreadContext.narrowed]
    split
    · rename_i wide
      exact Nat.mod_eq_of_lt (fits.reach wide)
    · rfl
  have enable := control (slot.val * 2) (by simp [places])
  have access := control (16 + slot.val * 4) (by simp [places])
  have length := control (18 + slot.val * 4) (by simp [places])
  have below := slot.isLt
  rw [expected, if_pos rfl, if_pos rfl] at enable
  rw [expected, if_pos rfl, if_neg (by omega), if_pos rfl] at access
  rw [expected, if_pos rfl, if_neg (by omega), if_neg (by omega)] at length
  simp only [decodeSlot, enable, access, length, address, kindOfBits_readWriteBits on.1,
    lengthOfBits_lengthBits fits.length]
  rfl

theorem decodeSlot_disabled {wow64 : Bool} (context : ThreadContext)
    (clear : field registers.2 (slot.val * 2) = 0) :
    decodeSlot (context.programDebugRegisters wow64 registers.1 registers.2) slot = none := by
  have same : field (context.programDebugRegisters wow64 registers.1 registers.2).debugControl
      (slot.val * 2) = 0 := by
    unfold ThreadContext.programDebugRegisters
    cases wow64 with
    | false => exact clear
    | true => exact (field_low registers.2 slot _ (by simp [places])).trans clear
  simp only [decodeSlot, same, ↓reduceIte]

end PointerLab.DebugPump
