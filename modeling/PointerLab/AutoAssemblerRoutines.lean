import PointerLab.AutoAssemblerRun
import PointerLab.Routines

set_option autoImplicit false

/- `runEnable` and `runDisable` as the threads that call them go through them: one directive,
one look at the target, one write, one symbol at a time. Left alone, each comes to what the
function of the same name computes. -/
namespace PointerLab.AutoAssembler

open Domain OrderedMap PatchRegistry SymbolTable TargetSession

/-- A step on the target alone. -/
def onTarget {Reply : Type} (step : Patched → Patched × Reply) : Routine World Reply :=
  .perform fun world => ({ world with target := (step world.target).1 }, (step world.target).2)

/-- A step on the symbols alone. -/
def onSymbols {Reply : Type} (step : List Symbol → List Symbol × Reply) : Routine World Reply :=
  .perform fun world => ({ world with symbols := (step world.symbols).1 }, (step world.symbols).2)

/-- A line of the first pass, in the world as it is. -/
def readStep (env : Env) (execute : Bool) (line : Line) (s : Known) (world : World) :
    World × Except String Known :=
  match readLine env execute line { s with world } with
  | .error message => (world, .error message)
  | .ok s => (s.world, .ok s)

/-- `readLines`, line by line. -/
def readLinesRoutine (env : Env) (execute : Bool) :
    List Line → Known → Routine World (Except String Known)
  | [], s => .ask fun world => .ok { s with world }
  | line :: rest, s =>
      (Routine.perform (readStep env execute line s)).bind fun
      | .error message => .done (.error message)
      | .ok s => readLinesRoutine env execute rest s

theorem finish_readLines (env : Env) (execute : Bool) (lines : List Line) (s : Known)
    (world : World) : (readLinesRoutine env execute lines s).finish world =
      readLines env execute lines { s with world } := by
  induction lines generalizing s world with
  | nil => rfl
  | cons line rest ih =>
      rw [readLinesRoutine, Routine.finish_bind, Routine.finish_perform, readStep, readLines]
      cases readLine env execute line { s with world } with
      | error message => rfl
      | ok later => exact ih later later.world

/-- A pass of the layout, line by line. -/
def layoutLinesRoutine (s : Section) (substitutions : DefineMap) :
    List Line → Pass → Routine World (Except String Pass)
  | [], pass => .done (.ok pass)
  | line :: rest, pass =>
      (Routine.ask fun world => layoutLine { s with world } substitutions line pass).bind fun
      | .error message => .done (.error message)
      | .ok pass => layoutLinesRoutine s substitutions rest pass

theorem finish_layoutLines (s : Section) (substitutions : DefineMap) (lines : List Line)
    (pass : Pass) (world : World) :
    (layoutLinesRoutine s substitutions lines pass).finish world =
      (world, layoutLines { s with world } substitutions lines pass) := by
  induction lines generalizing pass with
  | nil => rfl
  | cons line rest ih =>
      rw [layoutLinesRoutine, Routine.finish_bind, Routine.finish_ask, layoutLines]
      cases layoutLine { s with world } substitutions line pass with
      | error message => rfl
      | ok later => exact ih later

def layoutPassesRoutine (s : Section) (lines : List Line) :
    Nat → SymbolMap → Routine World (Except String (Option (List Block × SymbolMap)))
  | 0, _ => .done (.ok none)
  | passes + 1, layout =>
      (layoutLinesRoutine s (asSubstitutions layout) lines { next := s.symbols }).bind fun
      | .error message => .done (.error message)
      | .ok pass =>
          match settle pass.next layout with
          | (true, layout) => .done (.ok (some (pass.blocks.reverse, layout)))
          | (false, layout) => layoutPassesRoutine s lines passes layout

theorem finish_layoutPasses (s : Section) (lines : List Line) (passes : Nat) (layout : SymbolMap)
    (world : World) : (layoutPassesRoutine s lines passes layout).finish world =
      (world, layoutPasses { s with world } lines passes layout) := by
  induction passes generalizing layout with
  | zero => rfl
  | succ passes ih =>
      rw [layoutPassesRoutine, Routine.finish_bind, finish_layoutLines, layoutPasses, layoutPass]
      cases layoutLines { s with world } (asSubstitutions layout) lines { next := s.symbols } with
      | error message => rfl
      | ok pass =>
          rcases settles : settle pass.next layout with ⟨settled, later⟩
          cases settled with
          | true => simp only [settles, Routine.finish_done]
          | false =>
              simp only [settles]
              exact ih later

def compileRoutine (env : Env) (execute : Bool) (source : Text) (enableSection : Bool)
    (stored : SymbolMap) : Routine World (Except String Compiled) :=
  let lines := sectionLines source enableSection
  if lines.isEmpty then .done (.ok ⟨{}, []⟩)
  else if !env.attached then .done (.error "Attach to a process before running a script.")
  else
    (Routine.ask fun world =>
      ({ world, symbols := assignAll caseLess stored [] } : Known)).bind fun s =>
    (readLinesRoutine env execute lines s).bind fun
    | .error message => .done (.error message)
    | .ok s =>
        (layoutPassesRoutine (s.section env) lines maxLayoutPasses
          (firstLayout s.symbols s.declaredLabels)).bind fun laid => .done (acceptLayout s laid)

theorem readLines_world {env : Env} {execute : Bool} {lines : List Line} {s known : Known}
    {world : World} (reads : readLines env execute lines s = (world, .ok known)) :
    known.world = world := by
  induction lines generalizing s with
  | nil =>
      cases reads
      rfl
  | cons line rest ih =>
      rw [readLines] at reads
      split at reads
      · cases reads
      · exact ih reads

theorem finish_compile (env : Env) (execute : Bool) (source : Text) (enableSection : Bool)
    (stored : SymbolMap) (world : World) :
    (compileRoutine env execute source enableSection stored).finish world =
      compile env execute source enableSection stored world := by
  simp only [compileRoutine, compile]
  split
  · rfl
  · split
    · rfl
    · rw [Routine.finish_bind, Routine.finish_ask, Routine.finish_bind, finish_readLines]
      rcases reads : readLines env execute (sectionLines source enableSection)
        { world, symbols := assignAll caseLess stored [] } with ⟨after, message | known⟩
      · rfl
      · obtain rfl := readLines_world reads
        dsimp only
        rw [Routine.finish_bind, finish_layoutPasses]
        rfl

def writeBlocksRoutine (env : Env) (name : Text) :
    Nat → List Block → Routine World (List Nat × Except String Unit)
  | _, [] => .done ([], .ok ())
  | index, block :: rest =>
      (onTarget (writeBlock env name index block)).bind fun
      | .error message => .done ([], .error message)
      | .ok id =>
          (writeBlocksRoutine env name (index + 1) rest).bind fun (ids, outcome) =>
            .done (id.toList ++ ids, outcome)

theorem finish_writeBlocks (env : Env) (name : Text) (index : Nat) (blocks : List Block)
    (world : World) : (writeBlocksRoutine env name index blocks).finish world =
      ({ world with target := (writeBlocks env name index blocks world.target).1 },
        (writeBlocks env name index blocks world.target).2) := by
  induction blocks generalizing index world with
  | nil => rfl
  | cons block rest ih =>
      rw [writeBlocksRoutine, Routine.finish_bind, onTarget, Routine.finish_perform, writeBlocks]
      rcases writeBlock env name index block world.target with ⟨target, message | id⟩
      · rfl
      · dsimp only
        rw [Routine.finish_bind, ih]
        rfl

def removeAllRoutine (env : Env) : List Nat → Routine World (List String)
  | [] => .done []
  | id :: rest =>
      (onTarget (PatchRegistry.remove (env.undo id) id)).bind fun
      | .error failure =>
          (removeAllRoutine env rest).bind fun problems => .done (failure.message :: problems)
      | .ok () => removeAllRoutine env rest

theorem finish_removeAll (env : Env) (ids : List Nat) (world : World) :
    (removeAllRoutine env ids).finish world =
      ({ world with target := (removeAll env ids world.target).1 },
        (removeAll env ids world.target).2) := by
  induction ids generalizing world with
  | nil => rfl
  | cons id rest ih =>
      rw [removeAllRoutine, Routine.finish_bind, onTarget, Routine.finish_perform, removeAll]
      rcases PatchRegistry.remove (env.undo id) id world.target with ⟨target, failure | reply⟩
      · dsimp only
        rw [Routine.finish_bind, ih]
        rfl
      · exact ih _

def freeAllRoutine (env : Env) : List Nat → Routine World Unit
  | [] => .done ()
  | address :: rest =>
      (Routine.perform fun world => world.free env address).bind fun _ => freeAllRoutine env rest

theorem finish_freeAll (env : Env) (addresses : List Nat) (world : World) :
    (freeAllRoutine env addresses).finish world = (freeAll env addresses world, ()) := by
  induction addresses generalizing world with
  | nil => rfl
  | cons address rest ih =>
      rw [freeAllRoutine, Routine.finish_bind, Routine.finish_perform, ih]
      rfl

def publishRoutine : List (Text × Nat) → Routine World (List Text)
  | [] => .done []
  | (name, address) :: rest =>
      (onSymbols (define name address)).bind fun
      | .error _ => publishRoutine rest
      | .ok () => (publishRoutine rest).bind fun names => .done (name :: names)

theorem finish_publish (entries : List (Text × Nat)) (world : World) :
    (publishRoutine entries).finish world =
      ({ world with symbols := (publish entries world.symbols).1 },
        (publish entries world.symbols).2) := by
  induction entries generalizing world with
  | nil => rfl
  | cons entry rest ih =>
      rw [publishRoutine, Routine.finish_bind, onSymbols, Routine.finish_perform, publish]
      rcases define entry.1 entry.2 world.symbols with ⟨table, failure | reply⟩
      · exact ih _
      · dsimp only
        rw [Routine.finish_bind, ih]
        rfl

def undefineAllRoutine : List Text → Routine World Unit
  | [] => .done ()
  | name :: rest =>
      (onSymbols fun table => (undefine name table, ())).bind fun _ => undefineAllRoutine rest

theorem finish_undefineAll (names : List Text) (world : World) :
    (undefineAllRoutine names).finish world =
      ({ world with symbols := undefineAll names world.symbols }, ()) := by
  induction names generalizing world with
  | nil => rfl
  | cons name rest ih =>
      rw [undefineAllRoutine, Routine.finish_bind, onSymbols, Routine.finish_perform, ih]
      rfl

/-- `runEnable`, step by step. -/
def enableRoutine (env : Env) (script : Script) (state : RunState) :
    Routine World (RunState × Except String Unit) :=
  (compileRoutine env true script.source true state.symbols).bind fun
  | .error message => .done (state, .error message)
  | .ok compiled =>
      let symbols := assignAll caseful compiled.layout state.symbols
      (writeBlocksRoutine env script.name 0 compiled.result.blocks).bind fun (ids, outcome) =>
        let patchIds := state.patchIds ++ ids
        match outcome with
        | .error message =>
            (removeAllRoutine env patchIds.reverse).bind fun _ =>
            (freeAllRoutine env (compiled.result.allocations.map (·.address))).bind fun _ =>
              .done ({ state with symbols, patchIds := [] }, .error message)
        | .ok () =>
            (publishRoutine compiled.result.registerSymbols).bind fun names =>
              .done ({ patchIds, symbols
                       allocations := compiled.result.allocations
                       registeredSymbols := state.registeredSymbols ++ names
                       notes := compiled.result.notes }, .ok ())

/-- An enable that nothing comes between is `runEnable`. -/
theorem finish_enable (env : Env) (script : Script) (state : RunState) (world : World) :
    (enableRoutine env script state).finish world = runEnable env script state world := by
  rw [enableRoutine, Routine.finish_bind, finish_compile, runEnable]
  rcases compile env true script.source true state.symbols world with ⟨after, message | compiled⟩
  · rfl
  · dsimp only
    rw [Routine.finish_bind, finish_writeBlocks]
    rcases writeBlocks env script.name 0 compiled.result.blocks after.target with
      ⟨target, ids, message | reply⟩
    · dsimp only
      rw [Routine.finish_bind, finish_removeAll, Routine.finish_bind, finish_freeAll]
      rfl
    · dsimp only
      rw [Routine.finish_bind, finish_publish]
      rfl

def restoreBlocksRoutine (env : Env) : Nat → List Block → Routine World (List String)
  | _, [] => .done []
  | index, block :: rest =>
      (onTarget fun target =>
        let (memory, reply) := writeBytes (env.block index) block.address block.bytes target.memory
        ({ target with memory }, reply)).bind fun
      | .error failure =>
          (restoreBlocksRoutine env (index + 1) rest).bind fun problems =>
            .done (("Could not write the [DISABLE] bytes at " ++ hexString block.address ++ ": " ++
              failure.message) :: problems)
      | .ok () => restoreBlocksRoutine env (index + 1) rest

theorem finish_restoreBlocks (env : Env) (index : Nat) (blocks : List Block) (world : World) :
    (restoreBlocksRoutine env index blocks).finish world =
      ({ world with target := (restoreBlocks env index blocks world.target).1 },
        (restoreBlocks env index blocks world.target).2) := by
  induction blocks generalizing index world with
  | nil => rfl
  | cons block rest ih =>
      rw [restoreBlocksRoutine, Routine.finish_bind, onTarget, Routine.finish_perform, restoreBlocks]
      rcases writeBytes (env.block index) block.address block.bytes world.target.memory with
        ⟨memory, failure | reply⟩
      · dsimp only
        rw [Routine.finish_bind, ih]
        rfl
      · exact ih _ _

def deallocateRoutine (env : Env) (allocations : List Allocation) :
    List Text → Routine World (List String)
  | [] => .done []
  | name :: rest =>
      match allocations.find? fun allocation => allocation.name == name with
      | none =>
          (deallocateRoutine env allocations rest).bind fun problems =>
            .done (("dealloc(" ++ String.ofList name ++
              ") names something this script did not allocate.") :: problems)
      | some allocation =>
          (Routine.perform fun world => world.free env allocation.address).bind fun
          | .error failure =>
              (deallocateRoutine env allocations rest).bind fun problems =>
                .done (("Could not free " ++ hexString allocation.address ++ ": " ++
                  failure.message) :: problems)
          | .ok () => deallocateRoutine env allocations rest

theorem finish_deallocate (env : Env) (allocations : List Allocation) (names : List Text)
    (world : World) : (deallocateRoutine env allocations names).finish world =
      deallocate env allocations names world := by
  induction names generalizing world with
  | nil => rfl
  | cons name rest ih =>
      rw [deallocateRoutine, deallocate]
      cases allocations.find? fun allocation => allocation.name == name with
      | none =>
          dsimp only
          rw [Routine.finish_bind, ih]
          rfl
      | some allocation =>
          dsimp only
          rw [Routine.finish_bind, Routine.finish_perform]
          rcases world.free env allocation.address with ⟨after, failure | reply⟩
          · dsimp only
            rw [Routine.finish_bind, ih]
            rfl
          · exact ih after

def carryOutRoutine (env : Env) (result : CompileResult) (allocations : List Allocation) :
    Routine World (List String) :=
  (restoreBlocksRoutine env 0 result.blocks).bind fun unwritten =>
  (undefineAllRoutine result.unregisterSymbols).bind fun _ =>
  (deallocateRoutine env allocations result.deallocations).bind fun unfreed =>
    .done (unwritten ++ unfreed)

theorem finish_carryOut (env : Env) (result : CompileResult) (allocations : List Allocation)
    (world : World) : (carryOutRoutine env result allocations).finish world =
      carryOut env result allocations world := by
  rw [carryOutRoutine, Routine.finish_bind, finish_restoreBlocks, Routine.finish_bind,
    finish_undefineAll, Routine.finish_bind, finish_deallocate]
  rfl

/-- `runDisable`, step by step. -/
def disableRoutine (env : Env) (script : Script) (state : RunState) :
    Routine World (RunState × Except String Unit) :=
  (removeAllRoutine env state.patchIds.reverse).bind fun unrestored =>
  (compileRoutine env true script.source false state.symbols).bind fun
  | .error message =>
      (undefineAllRoutine state.registeredSymbols).bind fun _ =>
        .done ({}, disableReply (unrestored ++ [message]))
  | .ok compiled =>
      (carryOutRoutine env compiled.result state.allocations).bind fun problems =>
      (undefineAllRoutine state.registeredSymbols).bind fun _ =>
        .done ({ notes := compiled.result.notes }, disableReply (unrestored ++ problems))

/-- A disable that nothing comes between is `runDisable`. -/
theorem finish_disable (env : Env) (script : Script) (state : RunState) (world : World) :
    (disableRoutine env script state).finish world = runDisable env script state world := by
  rw [disableRoutine, Routine.finish_bind, finish_removeAll, Routine.finish_bind, finish_compile,
    runDisable]
  rcases removeAll env state.patchIds.reverse world.target with ⟨target, unrestored⟩
  dsimp only
  rcases compile env true script.source false state.symbols { world with target } with
    ⟨after, message | compiled⟩
  · dsimp only
    rw [Routine.finish_bind, finish_undefineAll]
    rfl
  · dsimp only
    rw [Routine.finish_bind, finish_carryOut, Routine.finish_bind, finish_undefineAll]
    rfl

end PointerLab.AutoAssembler
