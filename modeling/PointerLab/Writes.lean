import PointerLab.Overlay

set_option autoImplicit false

/- Runs of cells written over a memory one after the other, some of them with a record of
what they cover. Putting the records back in reverse is the undo; a write without a record
leaves its cells behind, wherever no recorded write had come first. -/
namespace Writes

open Overlay

variable {Byte : Type*}

structure Write (Byte : Type*) where
  address : Nat
  cells : List Byte
  recorded : Bool
  deriving DecidableEq

namespace Write

def Covers (write : Write Byte) (place : Nat) : Prop :=
  write.address ≤ place ∧ place < write.address + write.cells.length

instance (write : Write Byte) (place : Nat) : Decidable (write.Covers place) :=
  inferInstanceAs (Decidable (_ ∧ _))

/-- What a write has for a place. -/
def at? (write : Write Byte) (place : Nat) : Option Byte :=
  if write.Covers place then write.cells[place - write.address]? else none

theorem at?_eq_some {write : Write Byte} {place : Nat} (covers : write.Covers place) :
    ∃ cell, write.at? place = some cell := by
  rw [at?, if_pos covers]
  unfold Covers at covers
  exact ⟨_, List.getElem?_eq_getElem (by omega)⟩

theorem covers_of_at? {write : Write Byte} {place : Nat} {cell : Byte}
    (here : write.at? place = some cell) : write.Covers place := by
  unfold at? at here
  split at here
  · assumption
  · contradiction

theorem at?_eq_none {write : Write Byte} {place : Nat} (outside : ¬write.Covers place) :
    write.at? place = none := if_neg outside

theorem overlay_eq (memory : Nat → Byte) (write : Write Byte) (place : Nat) :
    overlay memory write.address write.cells place = (write.at? place).getD (memory place) := by
  by_cases covers : write.Covers place
  · rw [at?, if_pos covers]
    unfold Covers at covers
    rw [overlay_inside _ _ _ _ covers.1 (by omega), List.getElem?_eq_getElem (by omega),
      Option.getD_some]
  · rw [at?_eq_none covers, Option.getD_none]
    unfold Covers at covers
    apply overlay_outside
    omega

end Write

/-- Memory after the writes of a list. -/
def perform (memory : Nat → Byte) (writes : List (Write Byte)) : Nat → Byte :=
  writes.foldl (fun memory write => overlay memory write.address write.cells) memory

/-- Memory after the writes of a list, once what the recorded ones cover is back, the last
of them first. -/
def putBack (memory : Nat → Byte) : List (Write Byte) → Nat → Byte
  | [] => memory
  | write :: rest =>
      let later := putBack (overlay memory write.address write.cells) rest
      if write.recorded then
        overlay later write.address (slice memory write.address write.cells.length)
      else later

/-- The cell that putting back leaves at a place: the last write there before any record. -/
def leftBehind : List (Write Byte) → Nat → Option Byte
  | [], _ => none
  | write :: rest, place =>
      if write.recorded ∧ write.Covers place then none
      else (leftBehind rest place).or (write.at? place)

/-- The cell the writes of a list come to at a place: that of the last one there. -/
def lastWrite : List (Write Byte) → Nat → Option Byte
  | [], _ => none
  | write :: rest, place => (lastWrite rest place).or (write.at? place)

theorem perform_apply (memory : Nat → Byte) (writes : List (Write Byte)) (place : Nat) :
    perform memory writes place = (lastWrite writes place).getD (memory place) := by
  induction writes generalizing memory with
  | nil => rfl
  | cons write rest ih =>
      rw [perform, List.foldl_cons, ← perform, ih, write.overlay_eq, lastWrite]
      cases lastWrite rest place <;> rfl

theorem exists_of_lastWrite {writes : List (Write Byte)} {place : Nat} {cell : Byte}
    (last : lastWrite writes place = some cell) : ∃ write ∈ writes, write.at? place = some cell := by
  induction writes with
  | nil => contradiction
  | cons write rest ih =>
      rw [lastWrite, Option.or_eq_some_iff] at last
      rcases last with later | ⟨_, here⟩
      · obtain ⟨found, inRest, here⟩ := ih later
        exact ⟨found, List.mem_cons_of_mem _ inRest, here⟩
      · exact ⟨write, List.mem_cons_self, here⟩

theorem lastWrite_ne_none {writes : List (Write Byte)} {write : Write Byte} {place : Nat}
    (member : write ∈ writes) (covers : write.Covers place) : lastWrite writes place ≠ none := by
  induction writes with
  | nil => contradiction
  | cons first rest ih =>
      rw [lastWrite, Ne, Option.or_eq_none_iff]
      rintro ⟨later, here⟩
      rcases List.mem_cons.mp member with rfl | inRest
      · obtain ⟨cell, written⟩ := Write.at?_eq_some covers
        rw [here] at written
        contradiction
      · exact ih inRest later

/-- Putting back leaves memory as it was, apart from what is left behind. -/
theorem putBack_apply (memory : Nat → Byte) (writes : List (Write Byte)) (place : Nat) :
    putBack memory writes place = (leftBehind writes place).getD (memory place) := by
  induction writes generalizing memory with
  | nil => rfl
  | cons write rest ih =>
      rw [putBack, leftBehind]
      by_cases covers : write.Covers place
      · cases recorded : write.recorded with
        | true =>
            simp only [covers, and_self, ↓reduceIte, Option.getD_none]
            unfold Write.Covers at covers
            rw [overlay_inside _ _ _ _ covers.1 (by rw [slice_length]; omega), slice_getElem]
            congr 1
            omega
        | false =>
            obtain ⟨cell, here⟩ := Write.at?_eq_some covers
            simp only [Bool.false_eq_true, false_and, ↓reduceIte, here]
            rw [ih, write.overlay_eq, here, Option.getD_some]
            cases leftBehind rest place <;> rfl
      · have none := Write.at?_eq_none covers
        have rest_ : (leftBehind rest place).getD (overlay memory write.address write.cells place) =
            (leftBehind rest place).getD (memory place) := by
          rw [write.overlay_eq, none, Option.getD_none]
        simp only [covers, and_false, ↓reduceIte, none, Option.or_none]
        cases write.recorded with
        | true =>
            unfold Write.Covers at covers
            rw [if_pos rfl, overlay_outside _ _ _ _ (by rw [slice_length]; omega), ih, rest_]
        | false => rw [if_neg Bool.false_ne_true, ih, rest_]

/-- What is left behind is the cell of a write without a record. -/
theorem exists_of_leftBehind {writes : List (Write Byte)} {place : Nat} {cell : Byte}
    (left : leftBehind writes place = some cell) :
    ∃ write ∈ writes, write.recorded = false ∧ write.at? place = some cell := by
  induction writes with
  | nil => contradiction
  | cons write rest ih =>
      rw [leftBehind] at left
      split at left
      · contradiction
      · rename_i kept
        rw [Option.or_eq_some_iff] at left
        rcases left with later | ⟨_, here⟩
        · obtain ⟨found, inRest, bare, there⟩ := ih later
          exact ⟨found, List.mem_cons_of_mem _ inRest, bare, there⟩
        · refine ⟨write, List.mem_cons_self, ?_, here⟩
          rw [← Bool.not_eq_true]
          exact fun recorded => kept ⟨recorded, Write.covers_of_at? here⟩

/-- Wherever two writes meet they have the same cell. -/
def Compatible (writes : List (Write Byte)) : Prop :=
  ∀ first ∈ writes, ∀ second ∈ writes, ∀ place, first.Covers place → second.Covers place →
    first.at? place = second.at? place

/-- Every write of a list shows in full exactly when they are compatible. -/
theorem all_show_iff (memory : Nat → Byte) (writes : List (Write Byte)) :
    (∀ write ∈ writes, ∀ place, write.Covers place →
      write.at? place = some (perform memory writes place)) ↔ Compatible writes := by
  constructor
  · intro shown first inFirst second inSecond place firstCovers secondCovers
    rw [shown first inFirst place firstCovers, shown second inSecond place secondCovers]
  · intro compatible write member place covers
    obtain ⟨cell, last⟩ := Option.ne_none_iff_exists'.mp (lastWrite_ne_none member covers)
    obtain ⟨other, otherMember, here⟩ := exists_of_lastWrite last
    rw [perform_apply, last, Option.getD_some, ← here]
    exact compatible write member other otherMember place covers (Write.covers_of_at? here)

end Writes
