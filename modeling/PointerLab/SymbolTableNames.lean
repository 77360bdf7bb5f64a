import Mathlib.Data.Char
import Mathlib.Data.List.Lex
import Mathlib.Data.List.Sort
import PointerLab.Runs
import PointerLab.SymbolTable

set_option autoImplicit false

/- `engine_symbols/SymbolTable.cpp` in both directions: symbols defined from expressions, the
name an address is described by, and what every table built through the calls is like. -/
namespace PointerLab.SymbolTable

open Domain AutoAssembler Runs

/-- The first symbol of a name with a new definition, or a new symbol at the end. -/
def setExpression (name : Text) (address : Nat) (expression : Text) : List Symbol → List Symbol
  | [] => [⟨name, address, expression⟩]
  | symbol :: rest =>
      if sameName symbol.name name then { symbol with address, expression } :: rest
      else symbol :: setExpression name address expression rest

/-- `define` from an expression. -/
def defineExpression (resolver : Resolver) (view : TargetView) (name expression : Text)
    (table : List Symbol) : List Symbol × Result Nat :=
  match resolve resolver view table expression with
  | .error failure => (table, .error failure)
  | .ok address =>
      let trimmedName := trim name
      if trimmedName.isEmpty then (table, fail "A symbol needs a name.")
      else if (parseAddress trimmedName).isSome then
        (table, fail ("\"" ++ String.ofList trimmedName ++
          "\" reads as a hexadecimal address, so it cannot also be a symbol name."))
      else if trimmedName.any isSign then
        (table, fail "A symbol name cannot contain '+' or '-'; those separate the offsets.")
      else (setExpression trimmedName address expression table, .ok address)

def clear (_ : List Symbol) : List Symbol := []

def find (name : Text) (table : List Symbol) : Option Symbol :=
  table.find? fun symbol => sameName symbol.name name

/-- By name, whatever the case. -/
def symbols (table : List Symbol) : List Symbol :=
  table.insertionSort fun left right => lower left.name ≤ lower right.name

/-- The module's image holds the address; its end is computed in `uintptr_t` arithmetic. -/
def inModule (address : Nat) (module : ModuleInfo) : Bool :=
  module.base ≤ address && address < (module.base + module.size) % addressSpace

def moduleAt (view : TargetView) (address : Nat) : Option ModuleInfo :=
  if !view.attached || address == 0 then none else view.modules.find? (inModule address)

/-- A module and how far into it an address is. -/
def moduleOffset (narrow : WideText → Text) (module : ModuleInfo) (address : Nat) : Text :=
  let offset := address - module.base
  narrow module.name ++ if offset = 0 then [] else '+' :: toHex offset

/-- `describe` against a session. -/
def describe (narrow : WideText → Text) (view : TargetView) (table : List Symbol)
    (address : Nat) : Text :=
  match table.find? fun symbol => symbol.address == address with
  | some symbol => symbol.name
  | none =>
      match moduleAt view address with
      | none => []
      | some module => moduleOffset narrow module address

/-- `describe` against a list of modules. -/
def describeAmong (narrow : WideText → Text) (modules : List ModuleInfo) (table : List Symbol)
    (address : Nat) : Text :=
  if address = 0 then []
  else
    match table.find? fun symbol => symbol.address == address with
    | some symbol => symbol.name
    | none =>
        match modules.find? (inModule address) with
        | none => []
        | some module => moduleOffset narrow module address

/-- Outside address zero the two agree. -/
theorem describeAmong_eq (narrow : WideText → Text) {view : TargetView}
    (attached : view.attached = true) (table : List Symbol) {address : Nat} (some_ : address ≠ 0) :
    describeAmong narrow view.modules table address = describe narrow view table address := by
  have listed : moduleAt view address = view.modules.find? (inModule address) := by
    simp [moduleAt, attached, some_]
  rw [describeAmong, describe, if_neg some_, listed]

/-- A call that changes the table, with the target it meets. -/
inductive Edit
  | defineExpression (view : TargetView) (name expression : Text)
  | define (name : Text) (address : Nat)
  | undefine (name : Text)
  | clear

def edit (resolver : Resolver) (table : List Symbol) : Edit → List Symbol
  | .defineExpression view name expression =>
      (defineExpression resolver view name expression table).1
  | .define name address => (define name address table).1
  | .undefine name => undefine name table
  | .clear => clear table

/-- The table that calls build from nothing. -/
def built (resolver : Resolver) (edits : List Edit) : List Symbol := run (edit resolver) [] edits

/-- What `define` takes for a name. -/
structure Named (name : Text) : Prop where
  nonempty : name ≠ []
  flush : trim name = name
  unsigned : name.any isSign = false
  number : parseAddress name = none

/-- Every symbol can be named, and no two in one spelling or another by the same name. -/
structure Sound (table : List Symbol) : Prop where
  named : ∀ symbol ∈ table, Named symbol.name
  distinct : (table.map fun symbol => lower symbol.name).Nodup

theorem sameName_iff {a b : Text} : sameName a b = true ↔ lower a = lower b := by
  rw [sameName, beq_iff_eq]

theorem trim_trim (text : Text) : trim (trim text) = trim text :=
  trimmed_of_flush (flush_trimmed _ text)

theorem setAddress_eq (name : Text) (address : Nat) (table : List Symbol) :
    setAddress name address table = setExpression name address [] table := by
  induction table with
  | nil => rfl
  | cons symbol rest ih => rw [setAddress, setExpression, ih]

/-- A name is in use, or it is added at the end. -/
theorem setExpression_names (name : Text) (address : Nat) (expression : Text)
    (table : List Symbol) :
    (setExpression name address expression table).map (·.name) =
      if ∃ symbol ∈ table, sameName symbol.name name = true then table.map (·.name)
      else table.map (·.name) ++ [name] := by
  induction table with
  | nil => simp [setExpression]
  | cons symbol rest ih =>
      rw [setExpression]
      by_cases same : sameName symbol.name name = true
      · rw [if_pos same, if_pos ⟨symbol, List.mem_cons_self, same⟩]
        rfl
      · rw [if_neg same, List.map_cons, ih]
        by_cases later : ∃ symbol ∈ rest, sameName symbol.name name = true
        · obtain ⟨used, inRest, sameUsed⟩ := later
          rw [if_pos ⟨used, inRest, sameUsed⟩,
            if_pos ⟨used, List.mem_cons_of_mem _ inRest, sameUsed⟩, List.map_cons]
        · rw [if_neg later, if_neg, List.map_cons, List.cons_append]
          rintro ⟨used, inside, sameUsed⟩
          cases List.mem_cons.mp inside with
          | inl first => exact same (first ▸ sameUsed)
          | inr inRest => exact later ⟨used, inRest, sameUsed⟩

theorem sound_iff {table : List Symbol} :
    Sound table ↔ (∀ name ∈ table.map (·.name), Named name) ∧
      ((table.map (·.name)).map lower).Nodup := by
  constructor
  · rintro ⟨named, distinct⟩
    refine ⟨List.forall_mem_map.mpr named, ?_⟩
    rwa [List.map_map]
  · rintro ⟨named, distinct⟩
    refine ⟨List.forall_mem_map.mp named, ?_⟩
    rwa [List.map_map] at distinct

theorem setExpression_sound {name : Text} (good : Named name) (address : Nat)
    (expression : Text) {table : List Symbol} (sound : Sound table) :
    Sound (setExpression name address expression table) := by
  have whole := sound_iff.mp sound
  rw [sound_iff, setExpression_names]
  split
  · exact whole
  · rename_i unused
    constructor
    · intro used inside
      cases List.mem_append.mp inside with
      | inl inTable => exact whole.1 used inTable
      | inr last => exact List.mem_singleton.mp last ▸ good
    · rw [List.map_append, List.nodup_append_comm]
      refine List.nodup_cons.mpr ⟨?_, whole.2⟩
      rw [List.map_map]
      intro inside
      obtain ⟨symbol, inTable, same⟩ := List.mem_map.mp inside
      exact unused ⟨symbol, inTable, sameName_iff.mpr same⟩

/-- The checks that `define` makes of a name, with an answer to each. -/
theorem of_nameChecks {Answer : Type} {P : Answer → Prop} {name : Text}
    {unnamed numbered signed taken : Answer} (empty : P unnamed) (number : P numbered)
    (sign : P signed) (good : Named (trim name) → P taken) :
    P (if (trim name).isEmpty then unnamed
      else if (parseAddress (trim name)).isSome then numbered
      else if (trim name).any isSign then signed
      else taken) := by
  split
  · exact empty
  · rename_i some_
    split
    · exact number
    · rename_i plain
      split
      · exact sign
      · rename_i unsigned
        refine good ⟨?_, trim_trim name, ?_, ?_⟩
        · simpa using some_
        · simpa using unsigned
        · simpa using plain

/-- A call of `define` changes nothing, or its name is one that it takes. -/
theorem defineExpression_cases (resolver : Resolver) (view : TargetView) (name expression : Text)
    (table : List Symbol) :
    (∃ failure, defineExpression resolver view name expression table = (table, .error failure)) ∨
      ∃ address, resolve resolver view table expression = .ok address ∧ Named (trim name) ∧
        defineExpression resolver view name expression table =
          (setExpression (trim name) address expression table, .ok address) := by
  unfold defineExpression
  cases resolved : resolve resolver view table expression with
  | error failure => exact .inl ⟨failure, rfl⟩
  | ok address =>
      dsimp only
      apply of_nameChecks (P := fun (answer : List Symbol × Result Nat) =>
        (∃ failure, answer = (table, .error failure)) ∨
          ∃ place, (.ok address : Result Nat) = .ok place ∧ Named (trim name) ∧
            answer = (setExpression (trim name) place expression table, .ok place))
      · exact .inl ⟨_, rfl⟩
      · exact .inl ⟨_, rfl⟩
      · exact .inl ⟨_, rfl⟩
      · exact fun named => .inr ⟨address, rfl, named, rfl⟩

theorem define_cases (name : Text) (address : Nat) (table : List Symbol) :
    (∃ failure, define name address table = (table, .error failure)) ∨
      Named (trim name) ∧
        define name address table = (setExpression (trim name) address [] table, .ok ()) := by
  unfold define
  dsimp only
  apply of_nameChecks (P := fun (answer : List Symbol × Result Unit) =>
    (∃ failure, answer = (table, .error failure)) ∨
      Named (trim name) ∧ answer = (setExpression (trim name) address [] table, .ok ()))
  · exact .inl ⟨_, rfl⟩
  · exact .inl ⟨_, rfl⟩
  · exact .inl ⟨_, rfl⟩
  · exact fun named => .inr ⟨named, by rw [setAddress_eq]⟩

theorem empty_sound : Sound [] := ⟨fun _ inside => (nomatch inside), List.nodup_nil⟩

theorem Sound.sublist {table part : List Symbol} (sound : Sound table)
    (fewer : part.Sublist table) : Sound part where
  named symbol inside := sound.named symbol (fewer.subset inside)
  distinct := List.Nodup.sublist (fewer.map _) sound.distinct

theorem edit_sound (resolver : Resolver) {table : List Symbol} (sound : Sound table) (call : Edit) :
    Sound (edit resolver table call) := by
  cases call with
  | defineExpression view name expression =>
      rw [edit]
      cases defineExpression_cases resolver view name expression table with
      | inl refused =>
          obtain ⟨failure, same⟩ := refused
          rwa [same]
      | inr accepted =>
          obtain ⟨address, _, good, set⟩ := accepted
          rw [set]
          exact setExpression_sound good address expression sound
  | define name address =>
      rw [edit]
      cases define_cases name address table with
      | inl refused =>
          obtain ⟨failure, same⟩ := refused
          rwa [same]
      | inr accepted =>
          rw [accepted.2]
          exact setExpression_sound accepted.1 address [] sound
  | undefine name => exact sound.sublist List.filter_sublist
  | clear => exact empty_sound

/-- Every table that calls build is sound. -/
theorem built_sound (resolver : Resolver) (edits : List Edit) : Sound (built resolver edits) :=
  (follows_true (edit resolver) [] edits).reached.invariant
    empty_sound fun _ call sound _ => edit_sound resolver sound call

theorem find_name {name : Text} {table : List Symbol} {symbol : Symbol}
    (found : find name table = some symbol) : lower symbol.name = lower name := by
  unfold find at found
  have same := List.find?_some found
  exact sameName_iff.mp same

/-- In a sound table a symbol is found by its own name. -/
theorem Sound.find {table : List Symbol} (sound : Sound table) {symbol : Symbol}
    (inside : symbol ∈ table) {name : Text} (same : lower symbol.name = lower name) :
    SymbolTable.find name table = some symbol := by
  obtain ⟨front, back, rfl⟩ := List.append_of_mem inside
  have here : SymbolTable.find name (symbol :: back) = some symbol :=
    List.find?_cons_of_pos (sameName_iff.mpr same)
  have earlier : SymbolTable.find name front = none := by
    refine List.find?_eq_none.mpr fun other inFront named => ?_
    have apart := sound.distinct
    rw [List.map_append, List.map_cons, List.nodup_append] at apart
    refine apart.2.2 _ (List.mem_map_of_mem inFront) _ List.mem_cons_self ?_
    rw [sameName_iff.mp named, same]
  unfold SymbolTable.find at here earlier ⊢
  rw [List.find?_append, earlier, here, Option.none_or]

end PointerLab.SymbolTable
