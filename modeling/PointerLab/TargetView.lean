import PointerLab.Domain

set_option autoImplicit false

/- A target that stands still, as `domain/TargetSession.cpp` shows it to the scanners.
An address that cannot be read has no byte. -/
namespace PointerLab

open Domain

structure TargetView where
  attached : Bool := true
  bitness : Bitness := .x64
  modules : List ModuleInfo := []
  regions : List MemoryRegion := []
  memory : Nat → Option UInt8

namespace TargetView

/-- The longest readable run of at most `size` bytes from `address` on. -/
def readable (memory : Nat → Option UInt8) (address : Nat) : Nat → List UInt8
  | 0 => []
  | size + 1 =>
      match memory address with
      | none => []
      | some byte => byte :: readable memory (address + 1) size

/-- `readBytes`. A short read succeeds unless there was nothing to read at all; the
system's text for that failure is left out. -/
def readBytes (view : TargetView) (address size : Nat) : Result (List UInt8) :=
  if !view.attached then fail "No target process attached."
  else
    let bytes := readable view.memory address size
    if bytes.isEmpty && size != 0 then fail "" 299 else .ok bytes

/-- `readPointer`: exactly one target-width pointer, or a failure. -/
def readPointer (view : TargetView) (address : Nat) : Result Nat :=
  let width := pointerSize view.bitness
  match readBytes view address width with
  | .error failure => .error failure
  | .ok bytes =>
      if bytes.length != width then fail "Short read where a pointer was expected."
      else .ok (littleEndian bytes)

theorem readable_length_le (memory : Nat → Option UInt8) (address size : Nat) :
    (readable memory address size).length ≤ size := by
  induction size generalizing address with
  | zero => exact Nat.zero_le _
  | succ size ih =>
      unfold readable
      split
      · exact Nat.zero_le _
      · exact Nat.succ_le_succ (ih _)

/-- A byte is read when everything from the start of the read up to it is readable. -/
theorem lt_readable_length {memory : Nat → Option UInt8} {address size index : Nat} :
    index < (readable memory address size).length ↔
      index < size ∧ ∀ before ≤ index, memory (address + before) ≠ none := by
  induction size generalizing address index with
  | zero => simp [readable]
  | succ size ih =>
      unfold readable
      split
      · rename_i hole
        simp only [List.length_nil, Nat.not_lt_zero, false_iff, not_and]
        intro _ open_
        exact open_ 0 (Nat.zero_le _) hole
      · rename_i byte here
        cases index with
        | zero => simp [here]
        | succ index =>
            rw [List.length_cons, Nat.succ_lt_succ_iff, ih, Nat.succ_lt_succ_iff]
            refine and_congr_right fun _ => ⟨fun open_ before within => ?_, fun open_ before within => ?_⟩
            · cases before with
              | zero => simp [here]
              | succ before =>
                  rw [Nat.add_comm before 1, ← Nat.add_assoc]
                  exact open_ before (Nat.le_of_succ_le_succ within)
            · rw [Nat.add_assoc, Nat.add_comm 1]
              exact open_ (before + 1) (Nat.succ_le_succ within)

theorem readable_pos {memory : Nat → Option UInt8} {address size : Nat} (wanted : 0 < size)
    (here : memory address ≠ none) : 0 < (readable memory address size).length := by
  refine lt_readable_length.mpr ⟨wanted, fun before within => ?_⟩
  rw [Nat.le_zero.mp within]
  exact here

theorem readable_drop {memory : Nat → Option UInt8} {address size index : Nat}
    (inside : index ≤ (readable memory address size).length) :
    (readable memory address size).drop index =
      readable memory (address + index) (size - index) := by
  induction index generalizing address size with
  | zero => rfl
  | succ index ih =>
      cases size with
      | zero => simp [readable] at inside
      | succ size =>
          cases here : memory address with
          | none => simp [readable, here] at inside
          | some byte =>
              simp only [readable, here, List.length_cons, Nat.succ_le_succ_iff] at inside
              simp only [readable, here, List.drop_succ_cons]
              rw [ih inside, Nat.add_sub_add_right, Nat.add_assoc, Nat.add_comm 1]

theorem readable_take (memory : Nat → Option UInt8) (address size count : Nat) :
    (readable memory address size).take count = readable memory address (min count size) := by
  induction size generalizing address count with
  | zero => simp [readable]
  | succ size ih =>
      cases count with
      | zero => simp [readable]
      | succ count =>
          rw [Nat.succ_min_succ]
          unfold readable
          split
          · rfl
          · rw [List.take_succ_cons, ih]

/-- Where nothing is unreadable, everything is read. -/
theorem readable_length {memory : Nat → Option UInt8} {address size : Nat}
    (whole : ∀ index < size, memory (address + index) ≠ none) :
    (readable memory address size).length = size := by
  have upper := readable_length_le memory address size
  rcases Nat.eq_zero_or_pos size with rfl | positive
  · omega
  · have last := (@lt_readable_length memory address size (size - 1)).mpr
      ⟨by omega, fun before within => whole before (by omega)⟩
    omega

/-- An attached target answers a read with the longest readable run, or with nothing
when there is none. -/
theorem readBytes_cases {view : TargetView} (address size : Nat) (attached : view.attached = true) :
    readBytes view address size = .ok (readable view.memory address size) ∨
      (∃ failure, readBytes view address size = .error failure) ∧
        readable view.memory address size = [] := by
  simp only [readBytes, attached, Bool.not_true, Bool.false_eq_true, ↓reduceIte]
  split
  · rename_i empty
    simp only [Bool.and_eq_true, List.isEmpty_iff] at empty
    exact Or.inr ⟨⟨_, rfl⟩, empty.1⟩
  · exact Or.inl rfl

/-- Where the first byte can be read, the read succeeds. -/
theorem readBytes_eq {view : TargetView} {address size : Nat} (attached : view.attached = true)
    (some_ : 0 < (readable view.memory address size).length) :
    readBytes view address size = .ok (readable view.memory address size) := by
  cases readBytes_cases address size attached with
  | inl answered => exact answered
  | inr refused =>
      rw [refused.2] at some_
      contradiction

end TargetView

end PointerLab
