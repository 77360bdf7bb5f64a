import PointerLab.AutoAssemblerRun
import PointerLab.Runs
import PointerLab.Tables

set_option autoImplicit false

/- The list of scripts in `AutoAssembler`, and the state the last run of each has left, when
the calls come one after the other. Each call meets a target of its own: whatever happens
to it between two calls is not this list's doing. -/
namespace PointerLab.AutoAssembler

open Std

structure Scripts where
  scripts : List Script := []
  states : TreeMap Nat RunState := {}
  nextId : Nat := 1

namespace Scripts

def find (id : Nat) (s : Scripts) : Option Script :=
  s.scripts.find? fun script => script.id == id

/-- The stored state of a script, an empty one if there is none. -/
def stored (id : Nat) (s : Scripts) : RunState := s.states[id]?.getD {}

end Scripts

/-- The first script with an id, changed. -/
def changeScript (id : Nat) (change : Script → Script) : List Script → List Script
  | [] => []
  | script :: rest =>
      if script.id = id then change script :: rest else script :: changeScript id change rest

def add (name source : Text) (s : Scripts) : Scripts :=
  { s with
    scripts := s.scripts ++ [
      { id := s.nextId
        name := if name.isEmpty then "Script ".toList ++ (toString s.nextId).toList else name
        source }]
    nextId := s.nextId + 1 }

def gone : String := "That script is no longer in the list."

def update (id : Nat) (name source : Text) (s : Scripts) : Scripts × Except String Unit :=
  match s.find id with
  | none => (s, .error gone)
  | some script =>
      if script.enabled then
        (s, .error ("Turn the script off before editing it. The section that undoes it is part of " ++
          "the text you are about to replace."))
      else
        ({ s with scripts := changeScript id (fun script =>
          { script with name := if name.isEmpty then script.name else name, source }) s.scripts },
          .ok ())

/-- `runEnable` or `runDisable`. -/
def runScript (env : Env) (script : Script) (enabled : Bool) (state : RunState) (world : World) :
    World × RunState × Except String Unit :=
  if enabled then runEnable env script state world else runDisable env script state world

/-- What a run leaves in the list: the flag and the state. -/
def store (id : Nat) (enabled : Bool) (state : RunState) (outcome : Except String Unit)
    (s : Scripts) : Scripts :=
  { s with
    scripts := changeScript id (fun script =>
      { script with enabled := enabled && outcome.isOk }) s.scripts
    states := s.states.insert id state }

/-- `setEnabled`, with nothing in between. -/
def setEnabled (env : Env) (id : Nat) (enabled : Bool) (world : World) (s : Scripts) :
    World × Scripts × Except String Unit :=
  match s.find id with
  | none => (world, s, .error gone)
  | some script =>
      if script.enabled = enabled then (world, s, .ok ())
      else
        let (world, state, outcome) := runScript env script enabled (s.stored id) world
        (world, store id enabled state outcome s, outcome)

theorem setEnabled_missing {env : Env} {id : Nat} {enabled : Bool} {world : World} {s : Scripts}
    (missing : s.find id = none) : setEnabled env id enabled world s = (world, s, .error gone) := by
  rw [setEnabled, missing]

theorem setEnabled_already {env : Env} {id : Nat} {world : World} {s : Scripts} {script : Script}
    (found : s.find id = some script) :
    setEnabled env id script.enabled world s = (world, s, .ok ()) := by
  rw [setEnabled, found]
  exact if_pos rfl

/-- A script that is not as asked for is run from its stored state. -/
theorem setEnabled_runs {env : Env} {id : Nat} {enabled : Bool} {world : World} {s : Scripts}
    {script : Script} (found : s.find id = some script) (differs : script.enabled ≠ enabled) :
    setEnabled env id enabled world s =
      ((runScript env script enabled (s.stored id) world).1,
        store id enabled (runScript env script enabled (s.stored id) world).2.1
          (runScript env script enabled (s.stored id) world).2.2 s,
        (runScript env script enabled (s.stored id) world).2.2) := by
  rw [setEnabled, found]
  exact if_neg differs

/-- The last section of `remove`. -/
def eraseScript (id : Nat) (s : Scripts) : Scripts × Except String Unit :=
  if s.scripts.all fun script => script.id != id then (s, .error gone)
  else
    ({ s with
      scripts := s.scripts.filter fun script => script.id != id
      states := s.states.erase id }, .ok ())

/-- `remove`. A script that could not be disabled stays. -/
def remove (env : Env) (id : Nat) (world : World) (s : Scripts) :
    World × Scripts × Except String Unit :=
  match s.find id with
  | none => (world, eraseScript id s)
  | some script =>
      if script.enabled then
        match setEnabled env id false world s with
        | (world, s, .error message) => (world, s, .error message)
        | (world, s, .ok ()) => (world, eraseScript id s)
      else (world, eraseScript id s)

/-- The loop of `disableAll`. -/
def disableEach (env : Nat → Env) : List Nat → World → Scripts → World × Scripts × Nat
  | [], world, s => (world, s, 0)
  | id :: rest, world, s =>
      match setEnabled (env id) id false world s with
      | (world, s, .error _) =>
          let (world, s, failures) := disableEach env rest world s
          (world, s, failures + 1)
      | (world, s, .ok ()) => disableEach env rest world s

/-- The loop goes on after a script that fails. -/
theorem disableEach_cons (env : Nat → Env) (id : Nat) (rest : List Nat) (world : World)
    (s : Scripts) :
    (disableEach env (id :: rest) world s).1 =
        (disableEach env rest (setEnabled (env id) id false world s).1
          (setEnabled (env id) id false world s).2.1).1 ∧
      (disableEach env (id :: rest) world s).2.1 =
        (disableEach env rest (setEnabled (env id) id false world s).1
          (setEnabled (env id) id false world s).2.1).2.1 := by
  rw [disableEach]
  rcases setEnabled (env id) id false world s with ⟨after, left, outcome⟩
  cases outcome with
  | error message => exact ⟨rfl, rfl⟩
  | ok reply => exact ⟨rfl, rfl⟩

def disableAll (env : Nat → Env) (world : World) (s : Scripts) :
    World × Scripts × Except String Unit :=
  let enabled := (s.scripts.filter (·.enabled)).map (·.id)
  let (world, s, failures) := disableEach env enabled world s
  (world, s,
    if failures ≠ 0 then
      .error (toString failures ++ " of " ++ toString enabled.length ++
        " script(s) did not disable cleanly; see the log.")
    else .ok ())

def forgetAll (s : Scripts) : Scripts := { s with scripts := [], states := {} }

/-- One call, with the target it meets. -/
inductive Call
  | add (name source : Text)
  | update (id : Nat) (name source : Text)
  | setEnabled (env : Env) (id : Nat) (enabled : Bool) (world : World)
  | remove (env : Env) (id : Nat) (world : World)
  | disableAll (env : Nat → Env) (world : World)
  | forgetAll

def step (s : Scripts) : Call → Scripts
  | .add name source => add name source s
  | .update id name source => (update id name source s).1
  | .setEnabled env id enabled world => (setEnabled env id enabled world s).2.1
  | .remove env id world => (remove env id world s).2.1
  | .disableAll env world => (disableAll env world s).2.1
  | .forgetAll => forgetAll s

end PointerLab.AutoAssembler
