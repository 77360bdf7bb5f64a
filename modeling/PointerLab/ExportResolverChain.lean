import PointerLab.ExportResolver
import PointerLab.IntegerValues
import Mathlib.Data.List.Sort

set_option autoImplicit false

/- Where a forwarder chain leads, and when `resolve` returns the address at its end. -/
namespace PointerLab.ExportResolver

open Domain TargetView AutoAssembler OrderedMap

section Specification

variable (library : Library) (view : TargetView)

/-- An RVA that lies in the export directory is that of a forwarder string. -/
def Inside (directory : Directory) (functionRva : Nat) : Prop :=
  directory.rva ≤ functionRva ∧ functionRva < directory.rva + directory.size

instance (directory : Directory) (functionRva : Nat) : Decidable (Inside directory functionRva) :=
  inferInstanceAs (Decidable (_ ∧ _))

/-- A module that the target has loaded exports a name, with an RVA that is not zero. -/
structure Exports (base : Nat) (directory : Directory) (named : NamedExport) : Prop where
  loaded : ∃ module ∈ view.modules, module.base = base
  listed : ∃ tables index, readTables view base = .ok (some tables) ∧
    tables.directory = directory ∧ index < tables.nameCount ∧
      readExport view base tables index = some named
  nonzero : named.functionRva ≠ 0

/-- The export of a name in the module at a base: the first in the order of the names. -/
def picked (base : Nat) (name : Name) : Option (Directory × NamedExport) :=
  match readTables view base with
  | .ok (some tables) =>
      ((namedExports view library base tables).find? fun named => named.name == name).map
        fun named => (tables.directory, named)
  | _ => none

/-- The export of a name of a module that is loaded under a name. -/
def Finds (moduleName : WideText) (name : Name) (base : Nat) (directory : Directory)
    (named : NamedExport) : Prop :=
  moduleBase view moduleName = base ∧ base ≠ 0 ∧
    picked library view base name = some (directory, named)

/-- The string of a forwarder names an export of a module. -/
def Forwards (base : Nat) (named : NamedExport) (moduleName : WideText) (name : Name) : Prop :=
  ∃ forwarded, splitForwarder (readCString view (placed base named.functionRva)) =
    some (forwarded, name) ∧ name.head? ≠ some 0x23 ∧ library.widen forwarded = moduleName

/-- The RVA of a function of the module at a base, whether it has a name or not. -/
def FunctionAt (base : Nat) (directory : Directory) (functionRva : Nat) : Prop :=
  findExportDirectory view base = some directory ∧ ∃ dir functionCount functionsRva index bytes,
    readTable view (placed base directory.rva) 40 = some dir ∧
      readScalar 4 dir 0x14 = some functionCount ∧ readScalar 4 dir 0x1C = some functionsRva ∧
      index < functionCount ∧
      readTable view (placed base functionsRva + index * 4) 4 = some bytes ∧
      littleEndian bytes = functionRva

/-- The string of a forwarder of a loaded module stands at an address. -/
def ForwarderString (address : Nat) : Prop :=
  ∃ module ∈ view.modules, ∃ directory functionRva,
    FunctionAt view module.base directory functionRva ∧ Inside directory functionRva ∧
      address = placed module.base functionRva

/-- From a name one comes to an export that is none of a forwarder string. -/
inductive Follows : WideText → Name → (base : Nat) → Directory → NamedExport → Prop
  | ends {moduleName : WideText} {name : Name} {base : Nat} {directory : Directory}
      {named : NamedExport} (finds : Finds library view moduleName name base directory named)
      (outside : ¬Inside directory named.functionRva) :
      Follows moduleName name base directory named
  | forwards {moduleName next : WideText} {name target : Name} {base last : Nat}
      {directory lastDirectory : Directory} {named lastNamed : NamedExport}
      (finds : Finds library view moduleName name base directory named)
      (inside : Inside directory named.functionRva)
      (forwards : Forwards library view base named next target)
      (rest : Follows next target last lastDirectory lastNamed) :
      Follows moduleName name last lastDirectory lastNamed

/-- An address is the one a name resolves to: the address of the export that the forwarders lead
to, and neither zero nor that of a forwarder string. -/
structure Resolved (moduleName : WideText) (name : Name) (address : Nat) : Prop where
  nonzero : address ≠ 0
  leads : ∃ base directory named, Follows library view moduleName name base directory named ∧
    Exports view base directory named ∧ ¬Inside directory named.functionRva ∧
      address = placed base named.functionRva
  apart : ¬ForwarderString view address

/-- The exports that the hops of a call come to are as they should be: the string of a forwarder
is there and the directory with it ends in the 32 bits of an RVA, and the address of any other
export is not zero, nor that of a forwarder string. -/
def Clean : (hops : Nat) → WideText → Name → Prop
  | 0, _, _ => True
  | hops + 1, moduleName, name =>
      ∀ base directory named, Finds library view moduleName name base directory named →
        if Inside directory named.functionRva then
          directory.rva + directory.size < 2 ^ 32 ∧
            readCString view (placed base named.functionRva) ≠ [] ∧
            ∀ next target, Forwards library view base named next target →
              Clean hops next target
        else placed base named.functionRva ≠ 0 ∧
          ¬ForwarderString view (placed base named.functionRva)

/-- What a resolver has parsed of the target as it is. -/
def Current (generation : Nat) (cache : Cache) : Prop :=
  cache.generation = generation → ∀ base entries, find baseOrder base cache.modules = some entries →
    ∃ tables, readTables view base = .ok (some tables) ∧
      entries = parsed view library base tables

end Specification

variable {library : Library} {view : TargetView}

theorem readScalar_lt {width offset value : Nat} {buffer : List UInt8}
    (read : readScalar width buffer offset = some value) : value < 256 ^ width := by
  unfold readScalar at read
  split at read
  · contradiction
  · rw [← Option.some.inj read]
    have bound := littleEndian_lt ((buffer.drop offset).take width)
    have size : ((buffer.drop offset).take width).length = width := by
      rw [List.length_take, List.length_drop]
      omega
    rwa [size] at bound

theorem findExportDirectory_size {base : Nat} {directory : Directory}
    (found : findExportDirectory view base = some directory) : directory.size < 2 ^ 32 := by
  unfold findExportDirectory at found
  split at found
  · contradiction
  · split at found
    · contradiction
    · simp only [Option.bind_eq_bind, Option.bind_eq_some_iff] at found
      obtain ⟨_, _, _, _, _, _, _, _, _, _, _, _, _, _, _, _, size, read, _, _, equal⟩ := found
      rw [← Option.some.inj equal]
      exact readScalar_lt read

/-- A part of a table that can be read. -/
theorem readTable_part {address size index : Nat} {table : List UInt8}
    (whole : readTable view address size = some table) (inside : index + 4 ≤ size) :
    readTable view (address + index) 4 = some ((table.drop index).take 4) := by
  unfold readTable readBytes at whole ⊢
  split at whole
  · contradiction
  · rename_i bytes answered
    split at whole
    · contradiction
    · rename_i enough
      obtain rfl := Option.some.inj whole
      split at answered
      · contradiction
      · rename_i attached
        dsimp only at answered
        split at answered
        · contradiction
        · obtain rfl := Except.ok.inj answered
          have part : ((readable view.memory address size).drop index).take 4 =
              readable view.memory (address + index) 4 := by
            rw [readable_drop (by omega), readable_take, Nat.min_eq_left (by omega)]
          have length : (readable view.memory (address + index) 4).length = 4 := by
            rw [← part, List.length_take, List.length_drop]
            omega
          have some_ : (readable view.memory (address + index) 4).isEmpty = false := by
            rw [List.isEmpty_eq_false_iff, ← List.length_pos_iff]
            omega
          rw [part, if_neg attached]
          simp only [some_, Bool.false_and, Bool.false_eq_true, ↓reduceIte, length, Nat.lt_irrefl]

/-- Where the tables of a module come out of. -/
theorem readTables_read {base : Nat} {tables : ExportTables}
    (read : readTables view base = .ok (some tables)) :
    findExportDirectory view base = some tables.directory ∧ ∃ dir functionsRva,
      readTable view (placed base tables.directory.rva) 40 = some dir ∧
        readScalar 4 dir 0x14 = some tables.functionCount ∧
        readScalar 4 dir 0x1C = some functionsRva ∧
        readTable view (placed base functionsRva) (tables.functionCount * 4) =
          some tables.functions := by
  unfold readTables at read
  cases found : findExportDirectory view base with
  | none => simp [found, fail] at read
  | some directory =>
      simp only [found] at read
      split at read
      · contradiction
      · rename_i dir header
        split at read
        · rename_i count _ functionsRva _ _ _ counted _ functionsAt _ _
          split at read
          · contradiction
          · split at read
            · injection read with equal
              contradiction
            · split at read
              · rename_i functionsRead
                injection read with equal
                injection equal with equal
                rw [← equal]
                exact ⟨rfl, dir, functionsRva, header, counted, functionsAt, functionsRead⟩
              · contradiction
        · contradiction

/-- An RVA that the loop over the names reads is that of a function. -/
theorem readExport_function {base index : Nat} {tables : ExportTables} {named : NamedExport}
    (read : readTables view base = .ok (some tables))
    (made : readExport view base tables index = some named) :
    FunctionAt view base tables.directory named.functionRva := by
  obtain ⟨found, dir, functionsRva, header, counted, functionsAt, whole⟩ := readTables_read read
  simp only [readExport, Option.bind_eq_bind, Option.bind_eq_some_iff] at made
  obtain ⟨_, _, ordinal, _, _, within, functionRva, entry, _, _, _, _, equal⟩ := made
  have inside : ordinal < tables.functionCount := by simpa using within
  rw [← Option.some.inj equal]
  refine ⟨found, dir, _, functionsRva, ordinal, _, header, counted, functionsAt, inside,
    readTable_part whole (by omega), ?_⟩
  unfold readScalar at entry
  split at entry
  · contradiction
  · exact Option.some.inj entry

/-- The code's test finds the forwarders of a directory whose end has not wrapped around. -/
theorem holds_iff {base : Nat} {tables : ExportTables}
    (read : readTables view base = .ok (some tables)) (functionRva : Nat) :
    tables.directory.holds functionRva = true ↔ Inside tables.directory functionRva ∧
      tables.directory.rva + tables.directory.size < 2 ^ 32 := by
  have size := findExportDirectory_size (readTables_read read).1
  simp only [Directory.holds, Inside, Bool.and_eq_true, decide_eq_true_eq]
  omega

theorem picked_eq_some {base : Nat} {name : Name} {directory : Directory} {named : NamedExport} :
    picked library view base name = some (directory, named) ↔
      ∃ tables, readTables view base = .ok (some tables) ∧ tables.directory = directory ∧
        (namedExports view library base tables).find? (fun named => named.name == name) =
          some named := by
  unfold picked
  split
  · rename_i tables read
    simp only [Option.map_eq_some_iff, Prod.mk.injEq, read, Except.ok.injEq, Option.some.injEq,
      exists_eq_left']
    constructor
    · rintro ⟨other, found, rfl, rfl⟩
      exact ⟨rfl, found⟩
    · rintro ⟨rfl, found⟩
      exact ⟨named, found, rfl, rfl⟩
  · rename_i none_
    simp only [reduceCtorEq, false_iff, not_exists, not_and]
    intro tables read
    exact absurd read (none_ tables)

/-- What a name finds is an export of a module that is loaded. -/
theorem Finds.exports {moduleName : WideText} {name : Name} {base : Nat} {directory : Directory}
    {named : NamedExport} (finds : Finds library view moduleName name base directory named) :
    Exports view base directory named := by
  obtain ⟨here, nonzero, found⟩ := finds
  obtain ⟨tables, read, rfl, first⟩ := picked_eq_some.mp found
  have inside := (library.perm _).mem_iff.mp (List.mem_of_find?_eq_some first)
  obtain ⟨index, within, made⟩ := List.mem_filterMap.mp inside
  refine ⟨?_, ⟨tables, index, read, rfl, List.mem_range.mp within, made⟩, ?_⟩
  · unfold moduleBase at here
    split at here
    · exact absurd here.symm nonzero
    · rename_i module loaded
      exact ⟨module, List.mem_of_find?_eq_some loaded, here⟩
  · simp only [readExport, Option.bind_eq_bind, Option.bind_eq_some_iff] at made
    obtain ⟨_, _, _, _, _, _, functionRva, _, _, positive, _, _, equal⟩ := made
    rw [← Option.some.inj equal]
    simpa using positive

/-- Where the RVA is that of a forwarder, its string is one of a loaded module. -/
theorem Finds.forwarderString {moduleName : WideText} {name : Name} {base : Nat}
    {directory : Directory} {named : NamedExport}
    (finds : Finds library view moduleName name base directory named)
    (inside : Inside directory named.functionRva) :
    ForwarderString view (placed base named.functionRva) := by
  obtain ⟨⟨module, loaded, rfl⟩, ⟨tables, index, read, rfl, _, made⟩, _⟩ := finds.exports
  exact ⟨module, loaded, _, _, readExport_function read made, inside, rfl⟩

theorem Finds.unique {moduleName : WideText} {name : Name} {base other : Nat}
    {directory otherDirectory : Directory} {named otherNamed : NamedExport}
    (one : Finds library view moduleName name base directory named)
    (two : Finds library view moduleName name other otherDirectory otherNamed) :
    base = other ∧ directory = otherDirectory ∧ named = otherNamed := by
  obtain ⟨rfl, _, found⟩ := one
  obtain ⟨rfl, _, again⟩ := two
  have same := Option.some.inj (found.symm.trans again)
  exact ⟨rfl, congrArg Prod.fst same, congrArg Prod.snd same⟩

/-- What `exports` answers for a module, whether it has parsed it before or not. -/
def listed (library : Library) (view : TargetView) (base : Nat) : Result (List ExportEntry) :=
  if !view.attached then fail "No target process is attached."
  else
    match readTables view base with
    | .error failure => .error failure
    | .ok none => .ok []
    | .ok (some tables) => .ok (parsed view library base tables)

variable {generation : Nat}

theorem exports_spec {base : Nat} {cache : Cache}
    (current : Current library view generation cache) :
    (exports library view generation base cache).2 = listed library view base ∧
      Current library view generation (exports library view generation base cache).1 := by
  unfold exports listed
  split
  · exact ⟨rfl, current⟩
  · have fresh : Current library view generation
        (if generation ≠ cache.generation then ⟨generation, []⟩ else cache) := by
      split
      · intro _ base entries found
        contradiction
      · exact current
    have same : (if generation ≠ cache.generation then ⟨generation, []⟩ else cache).generation =
        generation := by
      split
      · rfl
      · rename_i equal
        exact (not_not.mp equal).symm
    generalize (if generation ≠ cache.generation then ⟨generation, []⟩ else cache) = clean at *
    cases found : find baseOrder base clean.modules with
    | some cached =>
        obtain ⟨tables, read, equal⟩ := fresh same base cached found
        simp only [found, read, equal]
        exact ⟨trivial, fresh⟩
    | none =>
        simp only [found]
        cases read : readTables view base with
        | error failure => exact ⟨rfl, fresh⟩
        | ok answer =>
            cases answer with
            | none => exact ⟨rfl, fresh⟩
            | some tables =>
                refine ⟨rfl, fun _ other entries there => ?_⟩
                rw [find_assign] at there
                split at there
                · rename_i equal
                  have here : base = other := equal
                  rw [← here]
                  exact ⟨tables, read, (Option.some.inj there).symm⟩
                · exact fresh same other entries there

@[simp] theorem entryOf_name (base : Nat) (directory : Directory) (named : NamedExport) :
    (entryOf view base directory named).name = named.name := by
  unfold entryOf
  split <;> rfl

theorem entryOf_forwarder {base : Nat} {directory : Directory} {named : NamedExport}
    (holds : directory.holds named.functionRva = true) :
    entryOf view base directory named =
      { name := named.name, ordinal := named.ordinal
        unresolvedForwarder := readCString view (placed base named.functionRva) } :=
  if_pos holds

theorem entryOf_export {base : Nat} {directory : Directory} {named : NamedExport}
    (holds : ¬directory.holds named.functionRva = true) :
    entryOf view base directory named =
      { name := named.name, ordinal := named.ordinal, address := placed base named.functionRva } :=
  if_neg holds

/-- The entry that a name has among the exports of a module is made of the one that it picks. -/
theorem find_listed {base : Nat} {name : Name} {table : List ExportEntry}
    (read : listed library view base = .ok table) :
    (table.find? fun entry => entry.name == name) =
      (picked library view base name).map fun found => entryOf view base found.1 found.2 := by
  unfold listed at read
  split at read
  · contradiction
  · unfold picked
    cases tables : readTables view base with
    | error failure => simp [tables] at read
    | ok answer =>
        cases answer with
        | none =>
            simp only [tables, Except.ok.injEq] at read
            rw [← read]
            rfl
        | some tables' =>
            simp only [tables, Except.ok.injEq] at read
            rw [← read, parsed, List.find?_map, Option.map_map]
            have test : ((fun entry : ExportEntry => entry.name == name) ∘
                entryOf view base tables'.directory) = fun named => named.name == name := by
              funext named
              simp
            rw [test]
            rfl

theorem picked_eq_none {base : Nat} {name : Name} {failure : Failure}
    (refused : listed library view base = .error failure) :
    picked library view base name = none := by
  unfold picked
  cases attached : view.attached with
  | false =>
      have closed : findExportDirectory view base = none := by
        simp [findExportDirectory, readBytes, attached, fail]
      simp [readTables, closed, fail]
  | true =>
      simp only [listed, attached, Bool.not_true, Bool.false_eq_true, ↓reduceIte] at refused
      split at refused
      · rename_i read
        simp [read]
      · contradiction
      · contradiction

/-- The only way on from a forwarder is by its string. -/
theorem follows_forwarder {moduleName : WideText} {name : Name} {base last : Nat}
    {directory lastDirectory : Directory} {named lastNamed : NamedExport}
    (finds : Finds library view moduleName name base directory named)
    (inside : Inside directory named.functionRva) :
    Follows library view moduleName name last lastDirectory lastNamed ↔
      ∃ next target, Forwards library view base named next target ∧
        Follows library view next target last lastDirectory lastNamed := by
  constructor
  · intro follows
    cases follows with
    | ends other outside =>
        obtain ⟨rfl, rfl, rfl⟩ := finds.unique other
        exact absurd inside outside
    | forwards other _ forwards rest =>
        obtain ⟨rfl, rfl, rfl⟩ := finds.unique other
        exact ⟨_, _, forwards, rest⟩
  · rintro ⟨next, target, forwards, follows⟩
    exact .forwards finds inside forwards follows

/-- A forwarder names one export. -/
theorem Forwards.unique {base : Nat} {named : NamedExport} {next other : WideText}
    {target otherTarget : Name} (forwards : Forwards library view base named next target)
    (again : Forwards library view base named other otherTarget) :
    other = next ∧ otherTarget = target := by
  obtain ⟨one, split_, _, rfl⟩ := forwards
  obtain ⟨two, otherSplit, _, rfl⟩ := again
  rw [split_, Option.some.injEq, Prod.mk.injEq] at otherSplit
  exact ⟨by rw [otherSplit.1], otherSplit.2.symm⟩

section Hop

variable {moduleName : WideText} {name : Name} {base : Nat} {directory : Directory}
  {named : NamedExport} (finds : Finds library view moduleName name base directory named)
include finds

theorem clean_succ {hops : Nat} :
    Clean library view (hops + 1) moduleName name ↔
      if Inside directory named.functionRva then
        directory.rva + directory.size < 2 ^ 32 ∧
          readCString view (placed base named.functionRva) ≠ [] ∧
          ∀ next target, Forwards library view base named next target →
            Clean library view hops next target
      else placed base named.functionRva ≠ 0 ∧
        ¬ForwarderString view (placed base named.functionRva) := by
  rw [Clean]
  constructor
  · intro all
    exact all base directory named finds
  · intro here other otherDirectory otherNamed otherFinds
    obtain ⟨rfl, rfl, rfl⟩ := finds.unique otherFinds
    exact here

/-- The address of an export outside the directory is what its name resolves to. -/
theorem resolved_export (outside : ¬Inside directory named.functionRva) :
    Resolved library view moduleName name (placed base named.functionRva) ↔
      placed base named.functionRva ≠ 0 ∧
        ¬ForwarderString view (placed base named.functionRva) := by
  constructor
  · intro resolved
    exact ⟨resolved.nonzero, resolved.apart⟩
  · rintro ⟨nonzero, apart⟩
    exact ⟨nonzero, ⟨base, directory, named, .ends finds outside, finds.exports, outside, rfl⟩,
      apart⟩

/-- The address of a forwarder string is not. -/
theorem not_resolved_forwarder (inside : Inside directory named.functionRva) :
    ¬Resolved library view moduleName name (placed base named.functionRva) :=
  fun resolved => resolved.apart (finds.forwarderString inside)

theorem resolved_forwarder (inside : Inside directory named.functionRva) {next : WideText}
    {target : Name} (forwards : Forwards library view base named next target) {address : Nat} :
    Resolved library view moduleName name address ↔ Resolved library view next target address := by
  constructor
  · intro resolved
    obtain ⟨last, lastDirectory, lastNamed, follows, leads⟩ := resolved.leads
    obtain ⟨other, otherTarget, otherForwards, rest⟩ :=
      (follows_forwarder finds inside).mp follows
    obtain ⟨rfl, rfl⟩ := forwards.unique otherForwards
    exact ⟨resolved.nonzero, ⟨last, lastDirectory, lastNamed, rest, leads⟩, resolved.apart⟩
  · intro resolved
    obtain ⟨last, lastDirectory, lastNamed, rest, leads⟩ := resolved.leads
    exact ⟨resolved.nonzero, ⟨last, lastDirectory, lastNamed, .forwards finds inside forwards rest,
      leads⟩, resolved.apart⟩

end Hop

/-- Nothing is found where a hop finds no export. -/
theorem clean_of_not_finds {moduleName : WideText} {name : Name} {hops : Nat}
    (none_ : ∀ base directory named, ¬Finds library view moduleName name base directory named) :
    Clean library view (hops + 1) moduleName name :=
  fun base directory named finds => absurd finds (none_ base directory named)

theorem resolveFrom_resolved_iff {exportName : Name} {hops : Nat} {moduleName : WideText}
    {name : Name} {cache : Cache} (current : Current library view generation cache) :
    (∀ address, (resolveFrom library view generation exportName hops moduleName name cache).2 =
        .ok address → Resolved library view moduleName name address) ↔
      Clean library view hops moduleName name := by
  induction hops generalizing moduleName name cache with
  | zero => simp [resolveFrom, Clean, fail]
  | succ hops ih =>
      rw [resolveFrom]
      by_cases gone : moduleBase view moduleName = 0
      · simp only [if_pos gone, fail, reduceCtorEq, false_implies, implies_true, true_iff]
        apply clean_of_not_finds
        intro base directory named finds
        exact finds.2.1 (finds.1 ▸ gone)
      · obtain ⟨answer, next⟩ :=
          @exports_spec library view generation (moduleBase view moduleName) cache current
        simp only [if_neg gone]
        generalize exports library view generation (moduleBase view moduleName) cache = call at *
        obtain ⟨cache, result⟩ := call
        cases result with
        | error failure =>
            simp only [reduceCtorEq, false_implies, implies_true, true_iff]
            apply clean_of_not_finds
            rintro base directory named ⟨rfl, _, found⟩
            rw [picked_eq_none answer.symm] at found
            contradiction
        | ok table =>
            simp only [find_listed answer.symm]
            cases found : picked library view (moduleBase view moduleName) name with
            | none =>
                simp only [Option.map_none, fail, reduceCtorEq, false_implies, implies_true,
                  true_iff]
                apply clean_of_not_finds
                rintro base directory named ⟨rfl, _, other⟩
                rw [found] at other
                contradiction
            | some pair =>
                obtain ⟨directory, named⟩ := pair
                have finds : Finds library view moduleName name (moduleBase view moduleName)
                    directory named := ⟨rfl, gone, found⟩
                obtain ⟨tables, read, rfl, _⟩ := picked_eq_some.mp found
                have test := holds_iff read named.functionRva
                rw [clean_succ finds]
                simp only [Option.map_some]
                by_cases holds : tables.directory.holds named.functionRva = true
                · obtain ⟨inside, ends⟩ := test.mp holds
                  rw [if_pos inside]
                  simp only [entryOf_forwarder holds]
                  by_cases empty :
                      readCString view (placed (moduleBase view moduleName) named.functionRva) = []
                  · simp only [empty, List.isEmpty_nil, ↓reduceIte, ne_eq, not_true_eq_false,
                      false_and, and_false, iff_false]
                    intro all
                    exact (all 0 rfl).nonzero rfl
                  · have some_ : (readCString view (placed (moduleBase view moduleName)
                        named.functionRva)).isEmpty = false := by
                      simpa using empty
                    simp only [some_, Bool.false_eq_true, ↓reduceIte, ne_eq, empty, ends,
                      not_false_eq_true, true_and]
                    cases parts : splitForwarder (readCString view
                        (placed (moduleBase view moduleName) named.functionRva)) with
                    | none => simp [Forwards, parts, fail]
                    | some pair =>
                        obtain ⟨forwarded, target⟩ := pair
                        by_cases ordinal : target.head? = some 0x23
                        · simp [Forwards, parts, ordinal, fail]
                        · simp only [if_neg ordinal]
                          have forwards : Forwards library view (moduleBase view moduleName) named
                              (library.widen forwarded) target := ⟨forwarded, parts, ordinal, rfl⟩
                          simp only [resolved_forwarder finds inside forwards]
                          rw [ih next]
                          constructor
                          · intro clean other otherTarget again
                            obtain ⟨rfl, rfl⟩ := forwards.unique again
                            exact clean
                          · intro all
                            exact all _ _ forwards
                · simp only [entryOf_export holds, List.isEmpty_nil, ↓reduceIte, Except.ok.injEq,
                    forall_eq']
                  by_cases inside : Inside tables.directory named.functionRva
                  · rw [if_pos inside]
                    constructor
                    · intro resolved
                      exact absurd resolved (not_resolved_forwarder finds inside)
                    · intro clean
                      exact absurd (test.mpr ⟨inside, clean.1⟩) holds
                  · rw [if_neg inside]
                    exact resolved_export finds inside

/-- Whatever a target holds, a call that succeeds returns the address of the export that the name
leads to exactly where the exports it comes to are clean. -/
theorem resolve_resolved_iff (library : Library) (view : TargetView) (generation : Nat)
    (moduleName : WideText) (exportName : Name) {cache : Cache}
    (current : Current library view generation cache) :
    (∀ address, (resolve library view generation moduleName exportName cache).2 = .ok address →
        Resolved library view moduleName exportName address) ↔
      Clean library view 8 moduleName exportName :=
  resolveFrom_resolved_iff current

def asciiLibrary : Library where
  widen := fun name => name.map fun byte => UInt16.ofNat byte.toNat
  narrow := fun name => String.ofList (Utf.decode16 name)
  sort := fun named => named.insertionSort fun left right => left.name ≤ right.name
  perm := fun named => List.perm_insertionSort _ named

/-- A module of one page at 0x10000 that exports "f" with an RVA. Its export directory is at 0x200
and has 0x100 bytes; what is not listed is zero. -/
def smallModule (functionRva : UInt8 × UInt8) : TargetView where
  modules := [⟨0x10000, 0x1000, wide "m.dll", []⟩]
  memory := fun address =>
    let image : List (Nat × List UInt8) :=
      [(0x00, [0x4D, 0x5A]), (0x3C, [0x40]), (0x40, [0x50, 0x45]), (0x58, [0x0B, 0x02]),
        (0xC8, [0x00, 0x02, 0, 0, 0x00, 0x01]),
        (0x210, [1, 0, 0, 0, 1, 0, 0, 0, 1, 0, 0, 0]),
        (0x21C, [0x40, 0x02, 0, 0, 0x50, 0x02, 0, 0, 0x60, 0x02]),
        (0x240, [functionRva.2, functionRva.1]), (0x250, [0x70, 0x02]), (0x270, [0x66])]
    if 0x10000 ≤ address ∧ address < 0x11000 then
      some ((image.findSome? fun piece =>
        if piece.1 ≤ address - 0x10000 then piece.2[address - 0x10000 - piece.1]? else none).getD 0)
    else none

/-- With an RVA outside the directory the module has no forwarder. -/
theorem smallModule_clean :
    Clean asciiLibrary (smallModule (0x03, 0x80)) 8 (wide "m") [0x66] := by
  have finds : Finds asciiLibrary (smallModule (0x03, 0x80)) (wide "m") [0x66] 0x10000
      ⟨0x200, 0x100⟩ ⟨[0x66], 1, 0x380⟩ :=
    ⟨by decide +kernel, by decide, by decide +kernel⟩
  rw [clean_succ finds, if_neg (by decide)]
  refine ⟨by decide, ?_⟩
  rintro ⟨module, loaded, directory, functionRva, ⟨found, dir, count, functionsRva, index, bytes,
    header, counted, functionsAt, within, entry, value⟩, inside, _⟩
  obtain rfl := List.mem_singleton.mp loaded
  have there : findExportDirectory (smallModule (0x03, 0x80)) 0x10000 = some ⟨0x200, 0x100⟩ := by
    decide +kernel
  obtain rfl := Option.some.inj (there.symm.trans found)
  have one : (readTable (smallModule (0x03, 0x80)) 0x10200 40).bind (readScalar 4 · 0x14) =
      some 1 := by decide +kernel
  have functions : (readTable (smallModule (0x03, 0x80)) 0x10200 40).bind (readScalar 4 · 0x1C) =
      some 0x240 := by decide +kernel
  have rva : (readTable (smallModule (0x03, 0x80)) 0x10240 4).map littleEndian = some 0x380 := by
    decide +kernel
  have same : readTable (smallModule (0x03, 0x80)) 0x10200 40 = some dir := header
  rw [same, Option.bind_some] at one functions
  obtain rfl := Option.some.inj (one.symm.trans counted)
  obtain rfl := Option.some.inj (functions.symm.trans functionsAt)
  obtain rfl : index = 0 := by omega
  have read : readTable (smallModule (0x03, 0x80)) 0x10240 4 = some bytes := entry
  rw [read, Option.map_some, value] at rva
  obtain rfl := Option.some.inj rva
  exact absurd inside (by decide)

theorem resolve_smallModule :
    (resolve asciiLibrary (smallModule (0x03, 0x80)) 1 (wide "m") [0x66] {}).2 = .ok 0x10380 ∧
      Resolved asciiLibrary (smallModule (0x03, 0x80)) (wide "m") [0x66] 0x10380 := by
  have answer : (resolve asciiLibrary (smallModule (0x03, 0x80)) 1 (wide "m") [0x66] {}).2 =
      .ok 0x10380 := by decide +kernel
  have resolved := @resolve_resolved_iff asciiLibrary (smallModule (0x03, 0x80)) 1 (wide "m")
    [0x66] {} fun same => absurd same (by decide)
  exact ⟨answer, resolved.mpr smallModule_clean _ answer⟩

/-- The RVA lies in the export directory, where the string of the forwarder is empty. -/
theorem resolve_empty_forwarder :
    (resolve asciiLibrary (smallModule (0x02, 0x80)) 1 (wide "m") [0x66] {}).2 = .ok 0 := by
  decide +kernel

end PointerLab.ExportResolver
