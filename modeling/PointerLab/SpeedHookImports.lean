import Mathlib.Data.Finset.Card
import Mathlib.Data.Finset.Filter
import PointerLab.SpeedHookWorker
import PointerLab.Values

set_option autoImplicit false

/- Import table patching: the modules of the target, the slots of their import tables and the
payload's list of the slots it has redirected. -/
namespace PointerLab.SpeedHook

open Domain Runs

/-- What an import slot leads to. The replacements have no address outside the payload. -/
inductive Callee where
  | loaded (address : Nat)
  | replacement (name : ClockName)
deriving DecidableEq

def Callee.isReplacement : Callee → Bool
  | .loaded _ => false
  | .replacement _ => true

structure ImportDescriptor where
  name : Nat
  firstThunk : Nat
  originalFirstThunk : Nat
  /-- The names of the original thunks up to the terminator, none for an ordinal. -/
  originals : List (Option Text)

/-- A module as the loader has mapped it. -/
structure Module where
  handle : Nat
  szModule : Text
  magic : Nat
  signature : Nat
  directoryAddress : Nat
  directorySize : Nat
  descriptors : List ImportDescriptor
  /-- The addresses that the loader has resolved its imports to. -/
  resolved : Nat → Nat

/-- The payload is built once for each architecture. -/
structure Build where
  pointerSize : Nat
  /-- `g_self` -/
  self : Nat

def dosSignature : Nat := 0x5A4D

def ntSignature : Nat := 0x00004550

/-- The names of `g_targets`. -/
def ClockName.importName : ClockName → Text
  | .qpc => "QueryPerformanceCounter".toList
  | .tick32 => "GetTickCount".toList
  | .tick64 => "GetTickCount64".toList
  | .mmTime => "timeGetTime".toList

def clockModules : List Text :=
  ["ntdll.dll".toList, "kernel32.dll".toList, "kernelbase.dll".toList, "winmm.dll".toList,
    "winmmbase.dll".toList]

def isClockModule (name : Text) : Bool :=
  clockModules.contains (lower name) || (lower name).take 7 == "api-ms-".toList ||
    (lower name).take 7 == "ext-ms-".toList

/-- The thunks of a descriptor, with the names beside them. -/
def Module.thunks (build : Build) (m : Module) (descriptor : ImportDescriptor) :
    List (Nat × Option Text) :=
  descriptor.originals.zipIdx.map fun entry =>
    (m.handle + descriptor.firstThunk + entry.2 * build.pointerSize, entry.1)

def Module.slots (build : Build) (m : Module) : List Nat :=
  m.descriptors.flatMap fun descriptor => (m.thunks build descriptor).map Prod.fst

structure Patch where
  slot : Nat
  original : Callee

/-- What a slot leads to, and the address the loader put there. -/
structure ImportSlot where
  resolved : Nat
  held : Callee
deriving DecidableEq

/-- A write of `unpatchEverything` that went through. -/
structure Restored where
  before : ImportSlot
  value : Callee
deriving DecidableEq

structure Imports where
  modules : List Module
  memory : Nat → ImportSlot
  patches : List Patch
  hookCount : Nat
  restored : List Restored

namespace Imports

def slots (build : Build) (s : Imports) : List Nat := s.modules.flatMap (Module.slots build)

def alreadyPatched (s : Imports) (slot : Nat) : Bool :=
  s.patches.any fun patch => patch.slot = slot

/-- `VirtualProtect` can fail, and does where nothing is mapped. -/
def writable (build : Build) (protect : Nat → Bool) (s : Imports) (slot : Nat) : Bool :=
  slot ∈ s.slots build && protect slot

def writeSlot (build : Build) (protect : Nat → Bool) (s : Imports) (slot : Nat)
    (value : Callee) : Imports :=
  if s.writable build protect slot then
    { s with memory := Function.update s.memory slot { s.memory slot with held := value } }
  else
    s

/-- The body of `patchModule` for an entry with the name of a target. -/
def patchSlot (build : Build) (protect : Nat → Bool) (s : Imports) (slot : Nat)
    (target : ClockName) : Imports :=
  if (s.memory slot).held = .replacement target ∨ s.alreadyPatched slot then s
  else if maxPatches ≤ s.patches.length then s
  else
    let recorded := { s with patches := s.patches ++ [Patch.mk slot (s.memory slot).held] }
    let written := recorded.writeSlot build protect slot (.replacement target)
    { written with hookCount := written.hookCount + 1 }

def targetNamed (name : Text) : Option ClockName :=
  clockNames.find? fun target => lower name == lower target.importName

def patchThunk (build : Build) (protect : Nat → Bool) (s : Imports) :
    Nat × Option Text → Imports
  | (_, none) => s
  | (slot, some name) =>
      match targetNamed name with
      | none => s
      | some target => s.patchSlot build protect slot target

def patchModule (build : Build) (protect : Nat → Bool) (s : Imports) (m : Module) : Imports :=
  if m.handle = build.self ∨ m.handle = 0 then s
  else if m.magic ≠ dosSignature then s
  else if m.signature ≠ ntSignature then s
  else if m.directoryAddress = 0 ∨ m.directorySize = 0 then s
  else
    (m.descriptors.takeWhile fun descriptor => descriptor.name ≠ 0).foldl (fun s descriptor =>
      if descriptor.firstThunk = 0 ∨ descriptor.originalFirstThunk = 0 then s
      else (m.thunks build descriptor).foldl (patchThunk build protect) s) s

/-- Over the snapshot of the modules, if there is one. -/
def patchEverything (build : Build) (snapshot : Bool) (protect : Nat → Bool) (s : Imports) :
    Imports :=
  if snapshot then
    s.modules.foldl (fun s m =>
      if isClockModule m.szModule then s else s.patchModule build protect m) s
  else
    s

def putBack (build : Build) (protect : Nat → Bool) (s : Imports) (patch : Patch) : Imports :=
  { s.writeSlot build protect patch.slot patch.original with
    restored :=
      if s.writable build protect patch.slot then
        s.restored ++ [Restored.mk (s.memory patch.slot) patch.original]
      else s.restored }

def unpatchEverything (build : Build) (protect : Nat → Bool) (s : Imports) : Imports :=
  { s.patches.reverse.foldl (putBack build protect) s with patches := [], hookCount := 0 }

/-- The loader maps a module where nothing is and resolves its imports. -/
def load (build : Build) (s : Imports) (m : Module) : Imports :=
  if ∃ slot ∈ m.slots build, slot ∈ s.slots build then s
  else
    { s with
      modules := s.modules ++ [m]
      memory := fun slot =>
        if slot ∈ m.slots build then ⟨m.resolved slot, .loaded (m.resolved slot)⟩
        else s.memory slot }

def unload (s : Imports) (handle : Nat) : Imports :=
  { s with modules := s.modules.filter fun m => m.handle ≠ handle }

end Imports

inductive ImportEvent where
  | load (m : Module)
  | unload (handle : Nat)
  | patchEverything (snapshot : Bool) (protect : Nat → Bool)
  | unpatchEverything (protect : Nat → Bool)

def Imports.step (build : Build) (s : Imports) : ImportEvent → Imports
  | .load m => s.load build m
  | .unload handle => s.unload handle
  | .patchEverything snapshot protect => s.patchEverything build snapshot protect
  | .unpatchEverything protect => s.unpatchEverything build protect

/-- Nothing is loaded yet. -/
def Imports.initial : Imports where
  modules := []
  memory := fun _ => ⟨0, .loaded 0⟩
  patches := []
  hookCount := 0
  restored := []

end PointerLab.SpeedHook
