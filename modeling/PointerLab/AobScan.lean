import PointerLab.FindPattern

set_option autoImplicit false

/- The `aobscanmodule` directive of `engine_aa/AutoAssembler.cpp`, and what it may rely on
when the pattern search finds one place only. -/
namespace PointerLab.AutoAssembler

open Domain MemoryScanner

/-- The code units of an ASCII text. -/
def wide (text : String) : WideText := text.toList.map fun c => UInt16.ofNat c.toNat

def stripDll (name : WideText) : WideText :=
  let suffix := wide ".dll"
  if suffix.length < name.length && suffix.isSuffixOf name then
    name.take (name.length - suffix.length)
  else name

/-- `sameModule`: the case of a name and its `.dll` do not matter. -/
def sameModule (a b : WideText) : Bool :=
  stripDll (a.map toLowerWide) == stripDll (b.map toLowerWide)

/-- `ExportResolver::moduleBase`, zero for a module that is not loaded. -/
def moduleBase (view : TargetView) (moduleName : WideText) : Nat :=
  match view.modules.find? fun module => sameModule module.name moduleName with
  | none => 0
  | some module => module.base

/-- The size of the first module at a base. -/
def moduleSize (view : TargetView) (base : Nat) : Nat :=
  match view.modules.find? fun module => module.base == base with
  | none => 0
  | some module => module.size

variable {Epsilon : Type} (floats : Floats Epsilon)

/-- What `aobscanmodule` binds its name to, and its note. -/
def aobscanmodule (view : TargetView) (widen : Text → WideText) :
    List Text → Except String (Text × Nat × String)
  | [name, moduleName, text] =>
      match parseHexPattern text with
      | none =>
          .error ("\"" ++ String.ofList text ++ "\" is not a byte pattern. Use hex bytes and ?? " ++
            "for wildcards, like 89 46 04 8B ?? 08.")
      | some pattern =>
          let base := moduleBase view (widen moduleName)
          if base == 0 then .error (String.ofList moduleName ++ " is not loaded in the target.")
          else
            match findPattern floats view base (moduleSize view base) pattern with
            | [] =>
                .error ("The pattern was not found in " ++ String.ofList moduleName ++
                  ". If the target has been updated since this script was written, the " ++
                  "code it names has probably moved or changed.")
            | [address] =>
                .ok (name, address,
                  "aobscanmodule " ++ String.ofList name ++ " = " ++ hexString address ++ " (" ++
                    String.ofList moduleName ++ "+" ++ hexString (address - base) ++ ")")
            | first :: second :: rest =>
                .error ("The pattern matches " ++ toString (rest.length + 2) ++ " places in " ++
                  String.ofList moduleName ++ " (" ++ hexString first ++ ", " ++ hexString second ++
                  ", ...). Lengthen it until it matches exactly one.")
  | _ => .error "aobscanmodule takes a name, a module, and a byte pattern."

/-- A name is bound only to the one place the search found. -/
theorem aobscanmodule_ok {view : TargetView} {widen : Text → WideText}
    {name moduleName text bound : Text} {address : Nat} {note : String}
    (binds : aobscanmodule floats view widen [name, moduleName, text] =
      .ok (bound, address, note)) :
    ∃ pattern, parseHexPattern text = some pattern ∧
      findPattern floats view (moduleBase view (widen moduleName))
        (moduleSize view (moduleBase view (widen moduleName))) pattern = [address] := by
  simp only [aobscanmodule] at binds
  split at binds
  · contradiction
  · rename_i pattern parsed
    split at binds
    · contradiction
    · split at binds
      · contradiction
      · rename_i one
        cases binds
        exact ⟨pattern, parsed, one⟩
      · contradiction

theorem eq_of_take_eq_singleton {Item : Type} {items : List Item} {item : Item} {count : Nat}
    (several : 1 < count) (one : items.take count = [item]) : items = [item] := by
  have length := congrArg List.length one
  rw [List.length_take, List.length_singleton] at length
  rw [← one, List.take_of_length_le (by omega)]

/-- `findPattern` returns the first `maxResults` occurrences exactly when none of them lies
behind an unreadable byte of its own chunk. Where that holds of a module, a name is bound
only to a pattern that occurs once in it. -/
theorem findPattern_complete (view : TargetView) (attached : view.attached = true) :
    (∀ start size maxResults pattern, pattern.bytes ≠ [] →
      (findPattern floats view start size pattern maxResults =
          (occurrences view.memory start size pattern).take maxResults ↔
        Clear view.memory start size pattern maxResults)) ∧
    ∀ widen name moduleName text bound address note,
      aobscanmodule floats view widen [name, moduleName, text] = .ok (bound, address, note) →
      ∃ pattern, parseHexPattern text = some pattern ∧
        (Clear view.memory (moduleBase view (widen moduleName))
            (moduleSize view (moduleBase view (widen moduleName))) pattern 64 →
          occurrences view.memory (moduleBase view (widen moduleName))
            (moduleSize view (moduleBase view (widen moduleName))) pattern = [address]) := by
  have complete (start size maxResults : Nat) (pattern : HexPattern)
      (nonempty : pattern.bytes ≠ []) :
      findPattern floats view start size pattern maxResults =
          (occurrences view.memory start size pattern).take maxResults ↔
        Clear view.memory start size pattern maxResults := by
    rw [findPattern_eq floats attached nonempty]
    exact Sweep.take_filter_eq_take
  refine ⟨complete, ?_⟩
  intro widen name moduleName text bound address note binds
  obtain ⟨pattern, parsed, one⟩ := aobscanmodule_ok floats binds
  refine ⟨pattern, parsed, fun clear => ?_⟩
  have whole := (complete _ _ 64 pattern (parseHexPattern_nonempty parsed)).mpr clear
  exact eq_of_take_eq_singleton (by decide) (whole.symm.trans one)

def nop : HexPattern := ⟨[0x90], [0xFF], rfl⟩

/-- A module of one byte, which can be read. -/
def tinyModule : TargetView where
  modules := [{ base := 0x10000, size := 1, name := wide "a.exe" }]
  memory := fun address => if address = 0x10000 then some 0x90 else none

theorem tinyModule_complete :
    findPattern noFloats tinyModule 0x10000 1 nop =
        (occurrences tinyModule.memory 0x10000 1 nop).take 64 ∧
      occurrences tinyModule.memory 0x10000 1 nop = [0x10000] := by
  have clear : Clear tinyModule.memory 0x10000 1 nop 64 := by
    unfold Clear
    decide
  obtain ⟨complete, once⟩ := findPattern_complete noFloats tinyModule rfl
  refine ⟨(complete 0x10000 1 64 nop (by decide)).mpr clear, ?_⟩
  obtain ⟨pattern, parsed, found⟩ := once (fun _ => wide "A.EXE") "x".toList [] "90".toList "x".toList
    0x10000 "aobscanmodule x = 0x10000 (+0x0)" (by decide)
  have parses : parseHexPattern "90".toList = some nop := by decide
  obtain rfl : pattern = nop := Option.some.inj (parsed.symm.trans parses)
  have base : moduleBase tinyModule (wide "A.EXE") = 0x10000 := by decide
  have size : moduleSize tinyModule 0x10000 = 1 := by decide
  rw [base, size] at found
  exact found clear

/-- A module of three pages, the middle one not readable, with one `nop` at the start of
each of the other two. -/
def holedModule : TargetView where
  modules := [{ base := 0x10000, size := 0x3000, name := wide "a.exe" }]
  memory := fun address =>
    if address = 0x10000 ∨ address = 0x12000 then some 0x90
    else if 0x11000 ≤ address ∧ address < 0x12000 then none
    else if 0x10000 ≤ address ∧ address < 0x13000 then some 0
    else none

theorem occurrences_holedModule :
    occurrences holedModule.memory 0x10000 0x3000 nop = [0x10000, 0x12000] := by
  refine Sweep.eq_of_increasing (occurrences_increasing _ _ _ _) (by decide) fun address => ?_
  have occurs : occursAt holedModule.memory nop address = true ↔
      address = 0x10000 ∨ address = 0x12000 := by
    have one : occursAt holedModule.memory nop address =
        (holedModule.memory address == some 0x90) := by
      cases here : holedModule.memory address <;> simp [occursAt, nop, here]
    rw [one, beq_iff_eq]
    unfold holedModule
    dsimp only
    split_ifs <;> simp_all
  rw [mem_occurrences, occurs]
  simp only [nop, List.length_cons, List.length_nil, List.mem_cons, List.not_mem_nil, or_false]
  omega

/-- The search gives up on the rest of a chunk at the first unreadable page: the pattern
occurs twice in the module, and the name is bound as if it occurred once. -/
theorem holedModule_incomplete :
    occurrences holedModule.memory 0x10000 0x3000 nop = [0x10000, 0x12000] ∧
      findPattern noFloats holedModule 0x10000 0x3000 nop = [0x10000] ∧
      findPattern noFloats holedModule 0x10000 0x3000 nop ≠
        (occurrences holedModule.memory 0x10000 0x3000 nop).take 64 ∧
      aobscanmodule noFloats holedModule (fun _ => wide "a.exe") ["x".toList, [], "90".toList] =
        .ok ("x".toList, 0x10000, "aobscanmodule x = 0x10000 (+0x0)") := by
  have hidden : unbroken holedModule.memory 0x10000 0x2000 = false := by
    refine List.all_eq_false.mpr ⟨0x1000, ?_, by decide⟩
    rw [List.mem_range'_1]
    decide
  have found : findPattern noFloats holedModule 0x10000 0x3000 nop = [0x10000] := by
    rw [findPattern_eq noFloats rfl (by decide), occurrences_holedModule]
    have first : unbroken holedModule.memory 0x10000 0 = true := by decide
    simp [first, hidden]
  refine ⟨occurrences_holedModule, found, ?_, ?_⟩
  · rw [found, occurrences_holedModule]
    decide
  · have parses : parseHexPattern "90".toList = some nop := by decide
    have base : moduleBase holedModule (wide "a.exe") = 0x10000 := by decide
    have size : moduleSize holedModule 0x10000 = 0x3000 := by decide
    simp only [aobscanmodule, parses, base, size, found]
    decide

end PointerLab.AutoAssembler
