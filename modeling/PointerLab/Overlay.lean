import Mathlib.Data.List.Basic
import Mathlib.Data.List.Range

set_option autoImplicit false

/- Memory as a function of the address, and runs of cells written over it.
`Byte` is whatever one address holds: a byte, or a byte that may be unmapped. -/
namespace Overlay

variable {Byte : Type*}

/-- `cells` written at `address`, everything else as before. -/
def overlay (memory : Nat → Byte) (address : Nat) (cells : List Byte) : Nat → Byte := fun place =>
  if address ≤ place then cells[place - address]?.getD (memory place) else memory place

/-- The `length` cells starting at `address`. -/
def slice (memory : Nat → Byte) (address length : Nat) : List Byte :=
  (List.range length).map fun index => memory (address + index)

/-- Two ranges have no address in common. An empty range may lie anywhere. -/
def Apart (left leftLength right rightLength : Nat) : Prop :=
  left + leftLength ≤ right ∨ right + rightLength ≤ left

theorem Apart.symm {left leftLength right rightLength : Nat}
    (apart : Apart left leftLength right rightLength) :
    Apart right rightLength left leftLength :=
  Or.symm apart

theorem overlay_inside (memory : Nat → Byte) (address place : Nat) (cells : List Byte)
    (lower : address ≤ place) (upper : place - address < cells.length) :
    overlay memory address cells place = cells[place - address] := by
  simp only [overlay, lower, ↓reduceIte, List.getElem?_eq_getElem upper, Option.getD_some]

theorem overlay_outside (memory : Nat → Byte) (address place : Nat) (cells : List Byte)
    (outside : place < address ∨ address + cells.length ≤ place) :
    overlay memory address cells place = memory place := by
  unfold overlay
  split
  · rename_i lower
    rw [List.getElem?_eq_none (by omega), Option.getD_none]
  · rfl

@[simp] theorem slice_length (memory : Nat → Byte) (address length : Nat) :
    (slice memory address length).length = length := by
  simp [slice]

theorem slice_getElem (memory : Nat → Byte) (address length index : Nat)
    (inside : index < (slice memory address length).length) :
    (slice memory address length)[index] = memory (address + index) := by
  simp [slice]

theorem slice_congr {memory other : Nat → Byte} {address length : Nat}
    (same : ∀ index < length, memory (address + index) = other (address + index)) :
    slice memory address length = slice other address length := by
  apply List.map_congr_left
  intro index inside
  exact same index (List.mem_range.mp inside)

theorem slice_eq_iff (memory : Nat → Byte) (address : Nat) (cells : List Byte) :
    slice memory address cells.length = cells ↔
      ∀ index, (inside : index < cells.length) → memory (address + index) = cells[index] := by
  constructor
  · intro same index inside
    have here := slice_getElem memory address cells.length index (by simpa using inside)
    rw [← here]
    simp only [same]
  · intro same
    apply List.ext_getElem (by simp)
    intro index inSlice inside
    rw [slice_getElem, same index inside]

/-- What was written is read back. -/
theorem slice_overlay (memory : Nat → Byte) (address : Nat) (cells : List Byte) :
    slice (overlay memory address cells) address cells.length = cells := by
  rw [slice_eq_iff]
  intro index inside
  rw [overlay_inside _ _ _ _ (by omega) (by omega)]
  simp only [Nat.add_sub_cancel_left]

/-- A write leaves the cells of every other range as they were. -/
theorem slice_overlay_apart (memory : Nat → Byte) (address other length : Nat)
    (cells : List Byte) (apart : Apart address cells.length other length) :
    slice (overlay memory address cells) other length = slice memory other length := by
  apply slice_congr
  intro index inside
  apply overlay_outside
  unfold Apart at apart
  omega

/-- Writing back what is there changes nothing. -/
theorem overlay_slice (memory : Nat → Byte) (address length : Nat) :
    overlay memory address (slice memory address length) = memory := by
  funext place
  by_cases inside : address ≤ place ∧ place - address < length
  · rw [overlay_inside _ _ _ _ inside.1 (by simpa using inside.2), slice_getElem]
    congr 1
    omega
  · apply overlay_outside
    rw [slice_length]
    omega

end Overlay
