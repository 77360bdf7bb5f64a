import PointerLab.AutoAssemblerLayout

set_option autoImplicit false

/- What `AutoAssembler` does with a compiled script: enabling it, disabling it, and the list
of scripts with the state each run leaves. -/
namespace PointerLab.AutoAssembler

open Domain OrderedMap Overlay PatchRegistry SymbolTable TargetSession

structure Script where
  id : Nat
  name : Text
  source : Text
  enabled : Bool := false
  deriving DecidableEq, Repr

structure RunState where
  patchIds : List Nat := []
  allocations : List Allocation := []
  registeredSymbols : List Text := []
  notes : List String := []
  symbols : SymbolMap := []
  deriving DecidableEq, Repr

/-- `Disassembler::disassemble`, as lengths: what does not decode is one byte of data. -/
def instructionLengths (decode : List UInt8 → Option Nat) : Nat → List UInt8 → List Nat
  | 0, _ => []
  | _, [] => []
  | count + 1, byte :: rest =>
      let length := (decode (byte :: rest)).getD 1
      length :: instructionLengths decode count ((byte :: rest).drop length)

/-- The loop of `padToInstructionBoundary`: how far whole instructions reach over a patch,
or nothing if one of them has no bytes. -/
def coveredLength (size : Nat) : Nat → List Nat → Option Nat
  | covered, [] => some covered
  | covered, length :: rest =>
      if size ≤ covered then some covered
      else if length = 0 then none
      else coveredLength size (covered + length) rest

def padToInstructionBoundary (env : Env) (memory : Nat → UInt8) (address : Nat)
    (patch : List UInt8) : List UInt8 :=
  if patch.isEmpty || !env.attached then patch
  else
    let lengths :=
      match (env.view 0 memory).readBytes address (32 * 15) with
      | .error _ => []
      | .ok buffer => instructionLengths (env.decode env.bitness) 32 buffer
    match coveredLength patch.length 0 lengths with
    | none => patch
    | some covered => patch ++ List.replicate (covered - patch.length) 0x90

/-- What is left in the target of the bytes of a block that could not be written: the system may
have copied the first of them before it failed. Nothing, where the write was not come to. -/
def tornBytes (env : Env) (index : Nat) (block : Block) (bytes : List UInt8) (target : Patched) :
    List UInt8 :=
  let reached :=
    if block.intoAllocation then (env.block index).attached
    else
      (apply { env.block index with write := none } block.address bytes "" "" target).2.isOk
  if reached then bytes.take (env.torn index) else []

/-- Bytes into pages of the script's own, or a patch over the target's code, which comes
back with the number of its record. -/
def writeBlock (env : Env) (name : Text) (index : Nat) (block : Block) (target : Patched) :
    Patched × Except String (Option Nat) :=
  if block.intoAllocation then
    match writeBytes (env.block index) block.address block.bytes target.memory with
    | (memory, .error failure) =>
        let torn := tornBytes env index block block.bytes target
        ({ target with memory := overlay memory block.address torn },
          .error ("Could not write " ++ toString block.bytes.length ++
            " byte(s) into the allocation at " ++ hexString block.address ++ ": " ++ failure.message))
    | (memory, .ok ()) => ({ target with memory }, .ok none)
  else
    let bytes := padToInstructionBoundary env target.memory block.address block.bytes
    match apply (env.block index) block.address bytes ("script: " ++ String.ofList name) "" target with
    | (after, .error failure) =>
        let torn := tornBytes env index block bytes target
        ({ after with memory := overlay after.memory block.address torn },
          .error ("Could not patch " ++ hexString block.address ++ ": " ++ failure.message))
    | (target, .ok id) => (target, .ok (some id))

/-- The blocks of a script, one after the other, and the records that were added. -/
def writeBlocks (env : Env) (name : Text) : Nat → List Block → Patched →
    Patched × List Nat × Except String Unit
  | _, [], target => (target, [], .ok ())
  | index, block :: rest, target =>
      match writeBlock env name index block target with
      | (target, .error message) => (target, [], .error message)
      | (target, .ok id) =>
          let (target, ids, outcome) := writeBlocks env name (index + 1) rest target
          (target, id.toList ++ ids, outcome)

/-- Patches taken off one by one, with the problems met on the way. -/
def removeAll (env : Env) : List Nat → Patched → Patched × List String
  | [], target => (target, [])
  | id :: rest, target =>
      match PatchRegistry.remove (env.undo id) id target with
      | (target, .error failure) =>
          let (target, problems) := removeAll env rest target
          (target, failure.message :: problems)
      | (target, .ok ()) => removeAll env rest target

/-- Blocks freed one by one; one that cannot be freed stays. -/
def freeAll (env : Env) (addresses : List Nat) (world : World) : World :=
  addresses.foldl (fun world address => (world.free env address).1) world

/-- Every published symbol defined; a name the table refuses is passed over. -/
def publish : List (Text × Nat) → List Symbol → List Symbol × List Text
  | [], table => (table, [])
  | (name, address) :: rest, table =>
      match define name address table with
      | (table, .error _) => publish rest table
      | (table, .ok ()) =>
          let (table, names) := publish rest table
          (table, name :: names)

def undefineAll (names : List Text) (table : List Symbol) : List Symbol :=
  names.foldl (fun table name => undefine name table) table

/-- `runEnable`. The state it leaves is stored even when it fails. -/
def runEnable (env : Env) (script : Script) (state : RunState) (world : World) :
    World × RunState × Except String Unit :=
  match compile env true script.source true state.symbols world with
  | (world, .error message) => (world, state, .error message)
  | (world, .ok compiled) =>
      let symbols := assignAll caseful compiled.layout state.symbols
      let (target, ids, outcome) :=
        writeBlocks env script.name 0 compiled.result.blocks world.target
      let patchIds := state.patchIds ++ ids
      match outcome with
      | .error message =>
          let (target, _) := removeAll env patchIds.reverse target
          let world := freeAll env (compiled.result.allocations.map (·.address)) { world with target }
          (world, { state with symbols, patchIds := [] }, .error message)
      | .ok () =>
          let (table, names) := publish compiled.result.registerSymbols world.symbols
          ({ world with target, symbols := table },
            { patchIds, symbols
              allocations := compiled.result.allocations
              registeredSymbols := state.registeredSymbols ++ names
              notes := compiled.result.notes }, .ok ())

/-- The bytes of the [DISABLE] section, past failures. -/
def restoreBlocks (env : Env) : Nat → List Block → Patched → Patched × List String
  | _, [], target => (target, [])
  | index, block :: rest, target =>
      match writeBytes (env.block index) block.address block.bytes target.memory with
      | (memory, .error failure) =>
          let (target, problems) := restoreBlocks env (index + 1) rest { target with memory }
          (target, ("Could not write the [DISABLE] bytes at " ++ hexString block.address ++ ": " ++
            failure.message) :: problems)
      | (memory, .ok ()) => restoreBlocks env (index + 1) rest { target with memory }

/-- The blocks to free, by the names the script gave them. -/
def deallocate (env : Env) (allocations : List Allocation) : List Text → World → World × List String
  | [], world => (world, [])
  | name :: rest, world =>
      match allocations.find? fun allocation => allocation.name == name with
      | none =>
          let (world, problems) := deallocate env allocations rest world
          (world, ("dealloc(" ++ String.ofList name ++
            ") names something this script did not allocate.") :: problems)
      | some allocation =>
          match world.free env allocation.address with
          | (world, .error failure) =>
              let (world, problems) := deallocate env allocations rest world
              (world, ("Could not free " ++ hexString allocation.address ++ ": " ++
                failure.message) :: problems)
          | (world, .ok ()) => deallocate env allocations rest world

/-- What a compiled [DISABLE] section does. -/
def carryOut (env : Env) (result : CompileResult) (allocations : List Allocation) (world : World) :
    World × List String :=
  let (target, unwritten) := restoreBlocks env 0 result.blocks world.target
  let symbols := undefineAll result.unregisterSymbols world.symbols
  let (world, unfreed) :=
    deallocate env allocations result.deallocations { world with target, symbols }
  (world, unwritten ++ unfreed)

def disableReply (problems : List String) : Except String Unit :=
  if problems.isEmpty then .ok ()
  else
    .error ("The script was disabled, but " ++ toString problems.length ++
      " step(s) did not complete:" ++ String.join (problems.map ("\n  - " ++ ·)))

/-- `runDisable`. -/
def runDisable (env : Env) (script : Script) (state : RunState) (world : World) :
    World × RunState × Except String Unit :=
  let (target, unrestored) := removeAll env state.patchIds.reverse world.target
  match compile env true script.source false state.symbols { world with target } with
  | (world, .error message) =>
      let symbols := undefineAll state.registeredSymbols world.symbols
      ({ world with symbols }, {}, disableReply (unrestored ++ [message]))
  | (world, .ok compiled) =>
      let (world, problems) := carryOut env compiled.result state.allocations world
      let symbols := undefineAll state.registeredSymbols world.symbols
      ({ world with symbols }, { notes := compiled.result.notes },
        disableReply (unrestored ++ problems))

end PointerLab.AutoAssembler
