import Mathlib.Init
import Std.Data.TreeMap
import Std.Data.TreeSet

set_option autoImplicit false

/- Lookups in maps and sets of numbers, with equality of keys in place of their order. -/
namespace Tables

open Std

variable {Value : Type*} {table : TreeMap Nat Value} {key place : Nat} {value : Value}

theorem getElem?_insert :
    (table.insert key value)[place]? = if place = key then some value else table[place]? := by
  rw [TreeMap.getElem?_insert]
  by_cases here : place = key
  · simp [here]
  · simp [here, Ne.symm here]

theorem getElem?_erase :
    (table.erase key)[place]? = if place = key then none else table[place]? := by
  rw [TreeMap.getElem?_erase]
  by_cases here : place = key
  · simp [here]
  · simp [here, Ne.symm here]

/-- What a map holds after an insertion: the new value, or what it held elsewhere. -/
theorem eq_some_of_insert {other : Value} (present : (table.insert key value)[place]? = some other) :
    (place = key ∧ value = other) ∨ (place ≠ key ∧ table[place]? = some other) := by
  rw [getElem?_insert] at present
  split at present
  · rename_i here
    exact Or.inl ⟨here, Option.some.inj present⟩
  · rename_i elsewhere
    exact Or.inr ⟨elsewhere, present⟩

theorem eq_some_of_erase (present : (table.erase key)[place]? = some value) :
    place ≠ key ∧ table[place]? = some value := by
  rw [getElem?_erase] at present
  split at present
  · contradiction
  · rename_i elsewhere
    exact ⟨elsewhere, present⟩

theorem contains_of_getElem? (absent : table[key]? = none) : table.contains key = false := by
  rw [TreeMap.contains_eq_isSome_getElem?, absent, Option.isSome_none]

variable {set : TreeSet Nat}

theorem contains_insert :
    (set.insert key).contains place = (decide (place = key) || set.contains place) := by
  rw [TreeSet.contains_insert]
  by_cases here : place = key
  · simp [here]
  · simp [here, Ne.symm here]

theorem contains_erase :
    (set.erase key).contains place = (!decide (place = key) && set.contains place) := by
  rw [TreeSet.contains_erase]
  by_cases here : place = key
  · simp [here]
  · simp [here, Ne.symm here]

end Tables
