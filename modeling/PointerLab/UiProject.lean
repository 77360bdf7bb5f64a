import PointerLab.AddressList
import PointerLab.AutoAssemblerWithdrawals
import PointerLab.Dissector
import PointerLab.SymbolTableNames

set_option autoImplicit false

/- `ui/UiProject.cpp`: the four stores of a project, saved to a file and loaded from one. -/
namespace PointerLab

open Domain ProjectStore SymbolTable
open AutoAssembler (Env Script Scripts World)

/-- What the session says of the target, for the head of a project file. -/
structure LastTarget where
  pid : Nat := 0
  processName : WideText := []
  bitness : Bitness := .x64

/-- The stores, with the target they are about. The list of scripts is one that calls can
build. -/
structure App where
  world : World
  scripts : Scripts
  kept : AutoAssembler.Kept (fun _ => True) scripts
  dissector : Dissector := {}
  addressList : AddressList := {}

namespace App

/-- The session as a view of the target. -/
def view (session : Env) (app : App) : TargetView := session.view 0 app.world.target.memory

/-- The symbols worth saving: a fixed address means nothing in the next run. -/
def savedSymbols (table : List Symbol) : List SavedSymbol :=
  ((symbols table).filter fun symbol => !symbol.expression.isEmpty).map fun symbol =>
    { name := symbol.name, expression := symbol.expression }

/-- The table that `saveProjectTo` fills in. -/
def projectTable (target : LastTarget) (app : App) : ProjectTable where
  lastPid := target.pid
  lastProcessName := target.processName
  lastBitness := target.bitness
  entries := app.addressList.snapshot
  symbols := savedSymbols app.world.symbols
  scripts := app.scripts.scripts.map fun script => { name := script.name, source := script.source }
  structures := app.dissector.structures.filter fun structure_ => !structure_.fields.isEmpty

/-- `saveProjectTo`: the text of the file, unless it cannot be written. -/
def saveProjectTo (api : Conversion) (fileName : Text) (target : LastTarget)
    (unwritten : Option Failure) (app : App) : Result Text :=
  match unwritten with
  | some failure =>
      fail ("Could not save " ++ String.ofList fileName ++ ": Could not write the project file: " ++
        failure.message)
  | none => .ok (writeTable api (projectTable target app))

/-- The symbols of a file, defined one after the other. One that does not resolve is named in
the log and left out. -/
def defineSymbols (resolver : Resolver) (view : TargetView) (saved : List SavedSymbol)
    (table : List Symbol) : List Symbol :=
  saved.foldl (fun table symbol =>
    (defineExpression resolver view symbol.name symbol.expression table).1) table

/-- The target with the symbols of the file in place of those that were there. -/
def resymboled (session : Env) (table : ProjectTable) (app : App) : World :=
  { app.world with
    symbols := defineSymbols session.resolver (app.view session) table.symbols
      (clear app.world.symbols) }

def addScripts (saved : List SavedScript) (s : Scripts) : Scripts :=
  saved.foldl (fun s script => AutoAssembler.add script.name script.source s) s

theorem noScripts_kept : AutoAssembler.Kept (fun _ => True) {} := AutoAssembler.kept_start

theorem addScripts_kept (saved : List SavedScript) {s : Scripts}
    (kept : AutoAssembler.Kept (fun _ => True) s) :
    AutoAssembler.Kept (fun _ => True) (addScripts saved s) := by
  induction saved generalizing s with
  | nil => exact kept
  | cons script rest ih => exact ih (kept.add trivial script.name script.source)

theorem forgetAll_kept (s : Scripts) :
    AutoAssembler.Kept (fun _ => True) (AutoAssembler.forgetAll s) :=
  ⟨List.nodup_nil, nofun, fun _ _ => Std.TreeMap.getElem?_emptyc, nofun⟩

/-- `loadProjectFrom`, of a file that may not open. `envs` is what each disable meets. -/
def loadProjectFrom (api : Conversion) (session : Env) (envs : Nat → Env) (fileName : Text)
    (file : Option Text) (app : App) : App × Result Unit :=
  match load api file with
  | .error failure =>
      (app, fail ("Could not open " ++ String.ofList fileName ++ ": " ++ failure.message)
        failure.code)
  | .ok table =>
      let (world, scripts, _) :=
        AutoAssembler.disableAll envs (app.resymboled session table) app.scripts
      ({ world
         scripts := addScripts table.scripts (AutoAssembler.forgetAll scripts)
         kept := addScripts_kept table.scripts (forgetAll_kept scripts)
         dissector := table.structures.foldl Dissector.addStructure app.dissector.forgetAll
         addressList := app.addressList.replace table.entries }, .ok ())

/-- The scripts of the outgoing project could all be switched off. -/
def SwitchesOff (session : Env) (envs : Nat → Env) (table : ProjectTable) (app : App) : Prop :=
  (AutoAssembler.disableAll envs (app.resymboled session table) app.scripts).2.2 = .ok ()

/-- What a loaded file leaves. -/
theorem loadProjectFrom_ok {api : Conversion} {text : Text} {table : ProjectTable}
    (loaded : load api (some text) = .ok table) (session : Env) (envs : Nat → Env)
    (fileName : Text) (app : App) :
    (loadProjectFrom api session envs fileName (some text) app).2 = .ok () ∧
      (loadProjectFrom api session envs fileName (some text) app).1.world =
        (AutoAssembler.disableAll envs (app.resymboled session table) app.scripts).1 ∧
      (loadProjectFrom api session envs fileName (some text) app).1.scripts =
        addScripts table.scripts (AutoAssembler.forgetAll
          (AutoAssembler.disableAll envs (app.resymboled session table) app.scripts).2.1) ∧
      (loadProjectFrom api session envs fileName (some text) app).1.dissector =
        table.structures.foldl Dissector.addStructure app.dissector.forgetAll ∧
      (loadProjectFrom api session envs fileName (some text) app).1.addressList =
        app.addressList.replace table.entries := by
  unfold loadProjectFrom
  rw [loaded]
  exact ⟨rfl, rfl, rfl, rfl, rfl⟩

/-- The symbols that a load leaves: those of the file, less the names that the outgoing
scripts took back. -/
theorem loadProjectFrom_symbols {api : Conversion} {text : Text} {table : ProjectTable}
    (loaded : load api (some text) = .ok table) {session : Env} {envs : Nat → Env} {app : App}
    (off : app.SwitchesOff session envs table) (fileName : Text) :
    (loadProjectFrom api session envs fileName (some text) app).1.world.symbols =
      (defineSymbols session.resolver (app.view session) table.symbols []).filter
        (AutoAssembler.unnamed app.scripts.withdrawn) := by
  rw [(loadProjectFrom_ok loaded session envs fileName app).2.1,
    AutoAssembler.disableAll_symbols app.kept.ids envs off, AutoAssembler.undefineAll_eq]
  rfl

end App

end PointerLab
