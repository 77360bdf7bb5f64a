import Mathlib.Data.List.Basic

set_option autoImplicit false

/- Maps as the list of their entries, in the order of the keys. Keys that fold alike are
one key, which keeps the spelling it was entered under first. -/
namespace OrderedMap

variable {Key Folded Value Other : Type*} [DecidableEq Folded]

/-- Which keys are one key, and which comes first. -/
structure KeyOrder (Key Folded : Type*) where
  fold : Key → Folded
  before : Folded → Folded → Bool

variable (order : KeyOrder Key Folded)

def find (key : Key) : List (Key × Value) → Option Value
  | [] => none
  | entry :: rest => if order.fold entry.1 = order.fold key then some entry.2 else find key rest

/-- `map[key] = value`. -/
def assign (key : Key) (value : Value) : List (Key × Value) → List (Key × Value)
  | [] => [(key, value)]
  | entry :: rest =>
      if order.fold entry.1 = order.fold key then (entry.1, value) :: rest
      else if order.before (order.fold key) (order.fold entry.1) then (key, value) :: entry :: rest
      else entry :: assign key value rest

/-- `map.emplace(key, value)`: a key that is there keeps its value. -/
def emplace (key : Key) (value : Value) (map : List (Key × Value)) : List (Key × Value) :=
  match find order key map with
  | some _ => map
  | none => assign order key value map

/-- Every entry of one map assigned to another, in order. -/
def assignAll (entries map : List (Key × Value)) : List (Key × Value) :=
  entries.foldl (fun map entry => assign order entry.1 entry.2 map) map

variable {order} {key other : Key} {value : Value} {map entries : List (Key × Value)}

theorem find_congr (same : order.fold key = order.fold other) :
    find order key map = find order other map := by
  induction map with
  | nil => rfl
  | cons entry rest ih => rw [find, find, same, ih]

theorem find_assign (key : Key) (value : Value) (map : List (Key × Value)) (other : Key) :
    find order other (assign order key value map) =
      if order.fold key = order.fold other then some value else find order other map := by
  induction map with
  | nil => rfl
  | cons entry rest ih =>
      rw [assign]
      split
      · rename_i here
        rw [find, here]
        split
        · rfl
        · rename_i different
          rw [find, here, if_neg different]
      · split
        · rw [find]
        · rename_i elsewhere _
          rw [find, ih, find]
          split
          · rename_i there
            rw [if_neg (there ▸ Ne.symm elsewhere)]
          · rfl

@[simp] theorem find_assign_self (key : Key) (value : Value) (map : List (Key × Value)) :
    find order key (assign order key value map) = some value := by
  rw [find_assign, if_pos rfl]

/-- An entry after an assignment has the new value, or was there. -/
theorem mem_assign {entry : Key × Value} (inside : entry ∈ assign order key value map) :
    (order.fold entry.1 = order.fold key ∧ entry.2 = value) ∨ entry ∈ map := by
  induction map with
  | nil => exact Or.inl (List.mem_singleton.mp inside ▸ ⟨rfl, rfl⟩)
  | cons first rest ih =>
      rw [assign] at inside
      split at inside
      · rename_i same
        cases List.mem_cons.mp inside with
        | inl here => exact Or.inl (here ▸ ⟨same, rfl⟩)
        | inr later => exact Or.inr (List.mem_cons_of_mem _ later)
      · split at inside
        · cases List.mem_cons.mp inside with
          | inl here => exact Or.inl (here ▸ ⟨rfl, rfl⟩)
          | inr later => exact Or.inr later
        · cases List.mem_cons.mp inside with
          | inl here => exact Or.inr (here ▸ List.mem_cons_self)
          | inr later => exact (ih later).imp_right (List.mem_cons_of_mem _)

theorem find_emplace (key : Key) (value : Value) (map : List (Key × Value)) (other : Key) :
    find order other (emplace order key value map) =
      if order.fold key = order.fold other then some ((find order key map).getD value)
      else find order other map := by
  unfold emplace
  split
  · rename_i old present
    split
    · rename_i same
      rw [← find_congr same, present, Option.getD_some]
    · rfl
  · rename_i absent
    rw [find_assign, absent, Option.getD_none]

theorem find_append (key : Key) (first second : List (Key × Value)) :
    find order key (first ++ second) = (find order key first).or (find order key second) := by
  induction first with
  | nil => rfl
  | cons entry rest ih =>
      rw [List.cons_append, find, find, ih]
      split <;> rfl

theorem assignAll_append (first second map : List (Key × Value)) :
    assignAll order (first ++ second) map = assignAll order second (assignAll order first map) :=
  List.foldl_append

/-- In a map that entries were assigned to, the last of them counts. -/
theorem find_assignAll (key : Key) (entries map : List (Key × Value)) :
    find order key (assignAll order entries map) =
      (find order key entries.reverse).or (find order key map) := by
  induction entries generalizing map with
  | nil => rfl
  | cons entry rest ih =>
      have step : assignAll order (entry :: rest) map =
          assignAll order rest (assign order entry.1 entry.2 map) := rfl
      rw [step, ih, find_assign, List.reverse_cons, find_append, Option.or_assoc]
      congr 1
      unfold find
      split <;> rfl

/-- What is found is the value of an entry. -/
theorem exists_of_find (found : find order key map = some value) :
    ∃ entry ∈ map, order.fold entry.1 = order.fold key ∧ entry.2 = value := by
  induction map with
  | nil => contradiction
  | cons entry rest ih =>
      rw [find] at found
      split at found
      · rename_i here
        exact ⟨entry, List.mem_cons_self, here, Option.some.inj found⟩
      · obtain ⟨inner, member, same, isValue⟩ := ih found
        exact ⟨inner, List.mem_cons_of_mem _ member, same, isValue⟩

/-- A map built by emplacing the entries of another answers as the other does. -/
theorem find_emplaceAll (entries : List (Key × Value)) (change : Value → Other)
    (map : List (Key × Other)) (key : Key) :
    find order key (entries.foldl (fun map entry => emplace order entry.1 (change entry.2) map) map) =
      (find order key map).or ((find order key entries).map change) := by
  induction entries generalizing map with
  | nil => simp [find]
  | cons entry rest ih =>
      rw [List.foldl_cons, ih, find_emplace, find]
      split
      · rename_i here
        rw [find_congr here, Option.some_or, Option.map_some]
        cases find order key map <;> rfl
      · rfl

end OrderedMap
