import PointerLab.DebugPump
import PointerLab.Runs
import PointerLab.Tables

set_option autoImplicit false

/- What a software breakpoint is for: the target's byte is lent to a trap and comes
back. The ledger keeps the lent bytes; the pump's table and memory refine it. -/
namespace PointerLab.DebugPump

open Domain Std

/-- The bytes out on loan, and the target's memory. -/
structure Ledger where
  lent : Nat → Option UInt8
  memory : Nat → UInt8

namespace Ledger

/-- A byte the ledger has on loan is the target's own, and what stands in its place
is the trap or that byte. Every other address holds the target's own byte. -/
structure Sound (original : Nat → UInt8) (ledger : Ledger) : Prop where
  own : ∀ address byte, ledger.lent address = some byte →
    byte = original address ∧ byte ≠ int3
  standing : ∀ address, ledger.lent address ≠ none →
    ledger.memory address = int3 ∨ ledger.memory address = original address
  elsewhere : ∀ address, ledger.lent address = none →
    ledger.memory address = original address

def write (address : Nat) (byte : UInt8) (ledger : Ledger) : Ledger :=
  { ledger with memory := fun place => if place = address then byte else ledger.memory place }

def lend (address : Nat) (ledger : Ledger) : Ledger :=
  { ledger with
    lent := fun place => if place = address then some (ledger.memory address) else ledger.lent place }

def drop (address : Nat) (ledger : Ledger) : Ledger :=
  { ledger with lent := fun place => if place = address then none else ledger.lent place }

variable {original : Nat → UInt8} {ledger : Ledger} {address : Nat}

/-- At an address on loan, the trap and the lent byte may be exchanged at will. -/
theorem Sound.write {byte lentByte : UInt8} (sound : Sound original ledger)
    (lent : ledger.lent address = some lentByte) (either : byte = int3 ∨ byte = lentByte) :
    Sound original (ledger.write address byte) := by
  have own := sound.own address lentByte lent
  refine ⟨sound.own, ?_, ?_⟩
  · intro place present
    by_cases here : place = address
    · subst here
      simp only [Ledger.write, ↓reduceIte, ← own.1]
      exact either
    · simpa only [Ledger.write, here, ↓reduceIte] using sound.standing place present
  · intro place absent
    have other : place ≠ address := by
      rintro rfl
      exact Option.some_ne_none _ (lent.symm.trans absent)
    simpa only [Ledger.write, other, ↓reduceIte] using sound.elsewhere place absent

/-- Writing the byte that is there already. -/
theorem write_same (ledger : Ledger) (address : Nat) :
    ledger.write address (ledger.memory address) = ledger := by
  have memory : (ledger.write address (ledger.memory address)).memory = ledger.memory := by
    funext place
    simp only [Ledger.write]
    split
    · rename_i here
      rw [here]
    · rfl
  exact congrArg (Ledger.mk ledger.lent) memory

/-- A byte that is no trap may be lent. -/
theorem Sound.lend (sound : Sound original ledger) (free : ledger.lent address = none)
    (noTrap : ledger.memory address ≠ int3) : Sound original (ledger.lend address) := by
  have byte := sound.elsewhere address free
  refine ⟨?_, ?_, ?_⟩
  · intro place lentByte present
    by_cases here : place = address
    · subst here
      simp only [Ledger.lend, ↓reduceIte, Option.some.injEq] at present
      exact ⟨present ▸ byte, present ▸ noTrap⟩
    · simp only [Ledger.lend, here, ↓reduceIte] at present
      exact sound.own place lentByte present
  · intro place present
    by_cases here : place = address
    · subst here
      exact Or.inr byte
    · simp only [Ledger.lend, here, ↓reduceIte] at present
      exact sound.standing place present
  · intro place absent
    by_cases here : place = address
    · subst here
      exact byte
    · simp only [Ledger.lend, here, ↓reduceIte] at absent
      exact sound.elsewhere place absent

/-- A loan may be forgotten once the trap is out of memory. -/
theorem Sound.drop (sound : Sound original ledger)
    (home : ledger.memory address = original address) : Sound original (ledger.drop address) := by
  refine ⟨?_, ?_, ?_⟩
  · intro place lentByte present
    by_cases here : place = address
    · simp [Ledger.drop, here] at present
    · simp only [Ledger.drop, here, ↓reduceIte] at present
      exact sound.own place lentByte present
  · intro place present
    by_cases here : place = address
    · simp [Ledger.drop, here] at present
    · simp only [Ledger.drop, here, ↓reduceIte] at present
      exact sound.standing place present
  · intro place absent
    by_cases here : place = address
    · subst here
      exact home
    · simp only [Ledger.drop, here, ↓reduceIte] at absent
      exact sound.elsewhere place absent

/-- Giving the byte back and forgetting the loan. -/
theorem Sound.giveBack {lentByte : UInt8} (sound : Sound original ledger)
    (lent : ledger.lent address = some lentByte) :
    Sound original ((ledger.write address lentByte).drop address) := by
  have own := sound.own address lentByte lent
  apply (sound.write lent (Or.inr rfl)).drop
  simp only [Ledger.write, ↓reduceIte, own.1]

end Ledger

/-- The byte a table entry has on loan. A hardware breakpoint borrows none. -/
def lentBy (info : BreakpointInfo) : Option UInt8 :=
  if isHardware info.kind then none else some info.originalByte

/-- A table and the memory under it, read as a ledger. -/
def ledgerOf (table : TreeMap Nat BreakpointInfo) (memory : Nat → UInt8) : Ledger where
  lent := fun address => table[address]?.bind lentBy
  memory := memory

def ledger (s : Pump) : Ledger := ledgerOf s.breakpoints s.memory

/-- Whether the table has a software entry at the address. -/
def softwareAt (address : Nat) (s : Pump) : Bool :=
  match s.breakpoints[address]? with
  | none => false
  | some entry => !isHardware entry.kind

theorem lent_eq_none_iff (address : Nat) (s : Pump) :
    (ledger s).lent address = none ↔ softwareAt address s = false := by
  cases present : s.breakpoints[address]? with
  | none => simp [ledger, ledgerOf, softwareAt, present]
  | some entry =>
      cases kind : isHardware entry.kind <;>
        simp [ledger, ledgerOf, softwareAt, lentBy, present, kind]

variable {table : TreeMap Nat BreakpointInfo} {memory : Nat → UInt8} {address : Nat}

theorem lent_of_software {entry : BreakpointInfo} (present : table[address]? = some entry)
    (software : isHardware entry.kind = false) :
    (ledgerOf table memory).lent address = some entry.originalByte := by
  simp [ledgerOf, present, lentBy, software]

/-- What an entry put into the table borrows is what the ledger then has at its address. -/
theorem ledgerOf_insert {info : BreakpointInfo} (place : Nat) :
    (ledgerOf (table.insert address info) memory).lent place =
      if place = address then lentBy info else (ledgerOf table memory).lent place := by
  simp only [ledgerOf]
  rw [Tables.getElem?_insert]
  split <;> rfl

/-- Replacing an entry by one that borrows the same changes nothing on the ledger. -/
theorem ledgerOf_insert_same {info : BreakpointInfo}
    (same : (ledgerOf table memory).lent address = lentBy info) :
    ledgerOf (table.insert address info) memory = ledgerOf table memory := by
  have lent : (ledgerOf (table.insert address info) memory).lent =
      (ledgerOf table memory).lent := by
    funext place
    rw [ledgerOf_insert]
    split
    · rename_i here
      rw [here, same]
    · rfl
  exact congrArg (Ledger.mk · memory) lent

theorem ledgerOf_replace {entry info : BreakpointInfo} (present : table[address]? = some entry)
    (same : lentBy info = lentBy entry) :
    ledgerOf (table.insert address info) memory = ledgerOf table memory := by
  apply ledgerOf_insert_same
  rw [same]
  simp [ledgerOf, present]

theorem ledgerOf_erase :
    ledgerOf (table.erase address) memory = (ledgerOf table memory).drop address := by
  have lent : (ledgerOf (table.erase address) memory).lent =
      ((ledgerOf table memory).drop address).lent := by
    funext place
    simp only [ledgerOf, Ledger.drop]
    rw [Tables.getElem?_erase]
    split <;> rfl
  exact congrArg (Ledger.mk · memory) lent

theorem ledgerOf_write (byte : UInt8) :
    ledgerOf table (fun place => if place = address then byte else memory place) =
      (ledgerOf table memory).write address byte := rfl

/-- A software breakpoint lends the byte that stands at its address. -/
theorem ledgerOf_lend {info : BreakpointInfo} (software : lentBy info = some (memory address)) :
    ledgerOf (table.insert address info) memory = (ledgerOf table memory).lend address := by
  have lent : (ledgerOf (table.insert address info) memory).lent =
      ((ledgerOf table memory).lend address).lent := by
    funext place
    rw [ledgerOf_insert, software]
    rfl
  exact congrArg (Ledger.mk · memory) lent

theorem drop_of_free {ledger : Ledger} (free : ledger.lent address = none) :
    ledger.drop address = ledger := by
  have lent : (ledger.drop address).lent = ledger.lent := by
    funext place
    simp only [Ledger.drop]
    split
    · rename_i here
      exact here ▸ free.symm
    · rfl
  exact congrArg (Ledger.mk · ledger.memory) lent

end PointerLab.DebugPump
