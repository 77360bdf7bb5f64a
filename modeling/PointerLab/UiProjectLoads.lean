import PointerLab.UiProject

set_option autoImplicit false

/- Two applications that load one project: what the project each had before leaves behind in
the one it has afterwards. -/
namespace PointerLab.App

open Domain ProjectStore SymbolTable
open AutoAssembler (Env Script Scripts unnamed)

/-- What a script is listed with. -/
def listed (script : Script) : Text × Text × Bool := (script.name, script.source, script.enabled)

/-- The list of loaded scripts, numbered from `next` on. -/
def listedFrom : Nat → List SavedScript → List (Text × Text × Bool)
  | _, [] => []
  | next, script :: rest =>
      (if script.name.isEmpty then "Script ".toList ++ (toString next).toList else script.name,
        script.source, false) :: listedFrom (next + 1) rest

/-- The two targets export the same. -/
def SameExports (session : Env) (first second : App) : Prop :=
  ∀ moduleName exportName,
    session.resolver.exports (first.view session) moduleName exportName =
      session.resolver.exports (second.view session) moduleName exportName

/-- What is left of the symbols of a file: what they come to against the target as it stands, less
what the scripts that are on take back. -/
def leftOf (session : Env) (table : ProjectTable) (app : App) : List Symbol :=
  (defineSymbols session.resolver (app.view session) table.symbols []).filter
    (unnamed app.scripts.withdrawn)

/-- The projects of two applications are the same. -/
structure Alike (first second : App) : Prop where
  symbols : first.world.symbols = second.world.symbols
  scripts : first.scripts.scripts.map listed = second.scripts.scripts.map listed
  structures : first.dissector.structures.map Dissector.contents =
    second.dissector.structures.map Dissector.contents
  entries : first.addressList.entries = second.addressList.entries

theorem resolve_alike {resolver : Resolver} {first second : TargetView}
    (attached : first.attached = second.attached) (modules : first.modules = second.modules)
    (exports : ∀ moduleName exportName, resolver.exports first moduleName exportName =
      resolver.exports second moduleName exportName) (table : List Symbol) (text : Text) :
    resolve resolver first table text = resolve resolver second table text := by
  have based (name : WideText) :
      AutoAssembler.moduleBase first name = AutoAssembler.moduleBase second name := by
    unfold AutoAssembler.moduleBase
    rw [modules]
  unfold resolve resolveTerm
  simp only [attached, based, exports]

theorem defineSymbols_alike {session : Env} {first second : App}
    (exports : SameExports session first second) (saved : List SavedSymbol) (table : List Symbol) :
    defineSymbols session.resolver (first.view session) saved table =
      defineSymbols session.resolver (second.view session) saved table := by
  have same (table : List Symbol) (text : Text) :
      resolve session.resolver (first.view session) table text =
        resolve session.resolver (second.view session) table text := by
    apply resolve_alike
    · rfl
    · rfl
    · exact exports
  unfold defineSymbols
  apply List.foldl_ext
  intro table symbol _
  unfold defineExpression
  rw [same]

theorem addScripts_listed (saved : List SavedScript) (s : Scripts) :
    (addScripts saved s).scripts.map listed =
      s.scripts.map listed ++ listedFrom s.nextId saved := by
  induction saved generalizing s with
  | nil => exact (List.append_nil _).symm
  | cons script rest ih =>
      have added : (AutoAssembler.add script.name script.source s).scripts.map listed =
          s.scripts.map listed ++ [(if script.name.isEmpty then
            "Script ".toList ++ (toString s.nextId).toList else script.name,
            script.source, false)] := by
        rw [AutoAssembler.add, List.map_append]
        rfl
      rw [addScripts, List.foldl_cons, ← addScripts, ih, added, listedFrom, List.append_assoc]
      rfl

theorem disableEach_nextId (envs : Nat → Env) (ids : List Nat) (world : AutoAssembler.World)
    (s : Scripts) : (AutoAssembler.disableEach envs ids world s).2.1.nextId = s.nextId := by
  have one (env : Env) (id : Nat) (world : AutoAssembler.World) (s : Scripts) :
      (AutoAssembler.setEnabled env id false world s).2.1.nextId = s.nextId := by
    unfold AutoAssembler.setEnabled
    split
    · rfl
    · split <;> rfl
  induction ids generalizing world s with
  | nil => rfl
  | cons id rest ih =>
      rw [(AutoAssembler.disableEach_cons envs id rest world s).2]
      exact (ih _ _).trans (one (envs id) id world s)

theorem toString_inj {first second : Nat}
    (same : (toString first).toList = (toString second).toList) : first = second := by
  have written (number : Nat) : (toString number).toList = Nat.toDigits 10 number :=
    Nat.toList_repr
  rw [written, written] at same
  have read (number : Nat) : Digits.number 10 (Nat.toDigits 10 number) = number :=
    Digits.number_toDigits (by decide) (by decide) number
  rw [← read first, same, read]

/-- Two lists of loaded scripts differ when a script without a name takes its number from
lists that have counted differently. -/
theorem listedFrom_eq_iff (first second : Nat) (saved : List SavedScript) :
    listedFrom first saved = listedFrom second saved ↔
      ((∃ script ∈ saved, script.name = []) → first = second) := by
  induction saved generalizing first second with
  | nil => simp [listedFrom]
  | cons script rest ih =>
      rw [listedFrom, listedFrom, List.cons.injEq, ih]
      cases named : script.name with
      | nil =>
          have heads : (("Script ".toList ++ (toString first).toList, script.source, false) :
              Text × Text × Bool) =
                ("Script ".toList ++ (toString second).toList, script.source, false) ↔
              first = second := by
            constructor
            · intro same
              exact toString_inj (List.append_cancel_left (Prod.mk.inj same).1)
            · rintro rfl
              rfl
          simp only [List.isEmpty_nil, if_true, heads]
          constructor
          · exact fun both _ => both.1
          · intro same
            have equal : first = second := same ⟨script, List.mem_cons_self, named⟩
            exact ⟨equal, fun _ => congrArg (· + 1) equal⟩
      | cons c later =>
          simp only [List.isEmpty_cons, Bool.false_eq_true, if_false, true_and, Nat.add_right_cancel_iff]
          constructor
          · rintro same ⟨other, inside, empty⟩
            cases List.mem_cons.mp inside with
            | inl here => rw [← here, empty] at named; contradiction
            | inr inRest => exact same ⟨other, inRest, empty⟩
          · rintro same ⟨other, inRest, empty⟩
            exact same ⟨other, List.mem_cons_of_mem _ inRest, empty⟩

theorem filter_eq_filter_iff {Item : Type} {first second : Item → Bool} {items : List Item} :
    items.filter first = items.filter second ↔ ∀ item ∈ items, first item = second item := by
  constructor
  · intro same item inside
    have members : item ∈ items.filter first ↔ item ∈ items.filter second := by rw [same]
    rw [List.mem_filter, List.mem_filter, and_iff_right inside, and_iff_right inside] at members
    exact Bool.eq_iff_iff.mpr members
  · exact List.filter_congr

section Stores

variable {api : Conversion} {text : Text} {table : ProjectTable}
  (loaded : load api (some text) = .ok table) (session : Env) (envs : Nat → Env)
  (fileName : Text) (app : App)
include loaded

/-- Scripts without a name take their numbers from where the outgoing list had come to. -/
theorem loadProjectFrom_scripts :
    (loadProjectFrom api session envs fileName (some text) app).1.scripts.scripts.map listed =
      listedFrom app.scripts.nextId table.scripts := by
  rw [(loadProjectFrom_ok loaded session envs fileName app).2.2.1, addScripts_listed]
  exact congrArg (listedFrom · table.scripts) (disableEach_nextId envs _ _ app.scripts)

theorem loadProjectFrom_structures :
    (loadProjectFrom api session envs fileName (some text) app).1.dissector.structures.map
      Dissector.contents = table.structures.map Dissector.usable := by
  rw [(loadProjectFrom_ok loaded session envs fileName app).2.2.2.1,
    Dissector.foldl_addStructure (Dissector.forgetAll_numbered _) (load_named loaded)]
  rfl

theorem loadProjectFrom_entries :
    (loadProjectFrom api session envs fileName (some text) app).1.addressList.entries =
      table.entries := by
  rw [(loadProjectFrom_ok loaded session envs fileName app).2.2.2.2]
  rfl

end Stores

/-- Against targets that export the same, the same is left just where the same is taken back. -/
theorem leftOf_eq_iff {session : Env} {first second : App}
    (exports : SameExports session first second) (table : ProjectTable) :
    leftOf session table first = leftOf session table second ↔
      ∀ symbol ∈ defineSymbols session.resolver (first.view session) table.symbols [],
        unnamed first.scripts.withdrawn symbol = unnamed second.scripts.withdrawn symbol := by
  unfold leftOf
  rw [← defineSymbols_alike exports]
  exact filter_eq_filter_iff

/-- After one file is loaded over two applications whose scripts could all be switched off, they
hold the same project exactly when the same is left of the file's symbols in both and, if the
file has a script without a name, both have counted as many scripts. Where the target exports the
same to both, the same is left when the outgoing scripts take back the same symbols. -/
theorem loadProjectFrom_alike_iff {api : Conversion} {text : Text} {table : ProjectTable}
    (loaded : load api (some text) = .ok table) {session : Env} {envs otherEnvs : Nat → Env}
    (fileName : Text) {first second : App} (off : first.SwitchesOff session envs table)
    (otherOff : second.SwitchesOff session otherEnvs table) :
    (Alike (loadProjectFrom api session envs fileName (some text) first).1
        (loadProjectFrom api session otherEnvs fileName (some text) second).1 ↔
      leftOf session table first = leftOf session table second ∧
        ((∃ script ∈ table.scripts, script.name = []) →
          first.scripts.nextId = second.scripts.nextId)) ∧
    (SameExports session first second →
      (leftOf session table first = leftOf session table second ↔
        ∀ symbol ∈ defineSymbols session.resolver (first.view session) table.symbols [],
          unnamed first.scripts.withdrawn symbol = unnamed second.scripts.withdrawn symbol)) := by
  refine ⟨?_, fun exports => leftOf_eq_iff exports table⟩
  have symbols := loadProjectFrom_symbols loaded off fileName
  have otherSymbols := loadProjectFrom_symbols loaded otherOff fileName
  unfold leftOf
  rw [← symbols, ← otherSymbols, ← listedFrom_eq_iff,
    ← loadProjectFrom_scripts loaded session envs fileName first,
    ← loadProjectFrom_scripts loaded session otherEnvs fileName second]
  constructor
  · exact fun alike => ⟨alike.symbols, alike.scripts⟩
  · rintro ⟨sameSymbols, sameScripts⟩
    constructor
    · exact sameSymbols
    · exact sameScripts
    · rw [loadProjectFrom_structures loaded, loadProjectFrom_structures loaded]
    · rw [loadProjectFrom_entries loaded, loadProjectFrom_entries loaded]

/-- A script that is on and has registered the name of its block. -/
def hpSource : Text := "alloc(hp, 100)\nregistersymbol(hp)\n[DISABLE]\ndealloc(hp)".toList

def hpCalls : List AutoAssembler.Call :=
  [.add [] hpSource, .setEnabled AutoAssembler.bench 1 true AutoAssembler.bareWorld]

def hpOn : App where
  world := (AutoAssembler.setEnabled AutoAssembler.bench 1 true AutoAssembler.bareWorld
    (Runs.run AutoAssembler.step {} [.add [] hpSource])).1
  scripts := Runs.run AutoAssembler.step {} hpCalls
  kept := AutoAssembler.kept_run hpCalls

def untouched : App where
  world := AutoAssembler.bareWorld
  scripts := {}
  kept := noScripts_kept

/-- A project with one symbol. -/
def oneSymbol (name : String) : Text := ("IRETABLE 3\nsymbol|" ++ name ++ "|1000\n").toList

def oneSymbolTable (name : String) : ProjectTable :=
  { symbols := [⟨name.toList, "1000".toList⟩] }

def benchLoad (name : String) (app : App) : App :=
  (loadProjectFrom blankConversion AutoAssembler.bench (fun _ => AutoAssembler.bench) []
    (some (oneSymbol name)) app).1

/-- A project with a symbol of another name is the same whether the script was on or not. -/
theorem loaded_alike :
    load blankConversion (some (oneSymbol "mp")) = .ok (oneSymbolTable "mp") ∧
      hpOn.scripts.withdrawn = ["hp".toList] ∧
      Alike (benchLoad "mp" hpOn) (benchLoad "mp" untouched) := by
  have loaded : load blankConversion (some (oneSymbol "mp")) = .ok (oneSymbolTable "mp") := by
    decide +kernel
  have on : hpOn.scripts.withdrawn = ["hp".toList] := by decide +kernel
  refine ⟨loaded, on, ?_⟩
  apply (loadProjectFrom_alike_iff loaded [] (by unfold SwitchesOff; decide +kernel)
    (by unfold SwitchesOff; decide +kernel)).1.mpr
  exact ⟨by decide +kernel, by decide⟩

/-- The symbol of the file has the name that the outgoing script registered: switching the
script off takes it out of the incoming project. -/
theorem outgoing_takes_symbol :
    load blankConversion (some (oneSymbol "hp")) = .ok (oneSymbolTable "hp") ∧
      hpOn.SwitchesOff AutoAssembler.bench (fun _ => AutoAssembler.bench) (oneSymbolTable "hp") ∧
      untouched.SwitchesOff AutoAssembler.bench (fun _ => AutoAssembler.bench)
        (oneSymbolTable "hp") ∧
      (benchLoad "hp" hpOn).world.symbols = [] ∧
      (benchLoad "hp" untouched).world.symbols = [⟨"hp".toList, 0x1000, "1000".toList⟩] ∧
      ¬ Alike (benchLoad "hp" hpOn) (benchLoad "hp" untouched) := by
  have gone : (benchLoad "hp" hpOn).world.symbols = [] := by decide +kernel
  have there : (benchLoad "hp" untouched).world.symbols =
      [⟨"hp".toList, 0x1000, "1000".toList⟩] := by
    decide +kernel
  refine ⟨by decide +kernel, ?_, ?_, gone, there, ?_⟩
  · unfold SwitchesOff
    decide +kernel
  · unfold SwitchesOff
    decide +kernel
  · intro alike
    have same := alike.symbols
    rw [gone, there] at same
    exact List.cons_ne_nil _ _ same.symm

end PointerLab.App
