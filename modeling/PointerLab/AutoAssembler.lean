import PointerLab.PatchRegistry
import PointerLab.SymbolTable

set_option autoImplicit false

/- `engine_aa/AutoAssembler.cpp`: what a script is compiled from and to, and the first pass
of `compile`, which carries out the directives in source order. -/
namespace PointerLab.AutoAssembler

open Domain MemoryScanner OrderedMap PatchRegistry SymbolTable TargetSession

/-- Pages of the target that an allocation holds. -/
structure Region where
  base : Nat
  size : Nat
  deriving DecidableEq, Repr

/-- Allocations are whole pages. -/
def pages (size : Nat) : Nat := (size + 0xFFF) / 0x1000 * 0x1000

/-- `VirtualAllocEx`, by line, with the blocks that are there: a new block never starts
where another one does. -/
structure Allocator where
  allocate : (number : Nat) → (blocks : List Region) → (size hint : Nat) → Result Nat
  fresh : ∀ number blocks size hint address, allocate number blocks size hint = .ok address →
    ∀ block ∈ blocks, block.base ≠ address

/-- The session, the assembler and the system as one call meets them. -/
structure Env where
  attached : Bool := true
  bitness : Bitness := .x64
  modules : List ModuleInfo := []
  /-- Which addresses the reads of a line can reach. -/
  readable : (number address : Nat) → Bool
  resolver : Resolver
  assemble : Text → Nat → Bitness → Result (List UInt8)
  /-- The length of the instruction at the start of some bytes, if they decode. -/
  decode : Bitness → List UInt8 → Option Nat
  allocator : Allocator
  /-- The accesses of the write of a block, by its place among the blocks. -/
  block : Nat → Access := fun _ => {}
  /-- How many bytes of a block a write that fails has left in the target all the same. -/
  torn : Nat → Nat := fun _ => 0
  /-- The accesses that take a patch off again. -/
  undo : Nat → Access := fun _ => {}
  /-- How freeing the block at an address ends. -/
  freed : Nat → Option Failure := fun _ => none

/-- The target with its patches, the blocks allocated in it, and the symbols. -/
structure World where
  target : Patched
  blocks : List Region := []
  symbols : List Symbol := []

def Env.view (env : Env) (number : Nat) (memory : Nat → UInt8) : TargetView where
  attached := env.attached
  bitness := env.bitness
  modules := env.modules
  memory := fun address => if env.readable number address then some (memory address) else none

/-- Fresh pages hold zeros. -/
def zeroed (memory : Nat → UInt8) (address size : Nat) : Nat → UInt8 := fun place =>
  if address ≤ place ∧ place < address + size then 0 else memory place

def World.allocated (world : World) (address size : Nat) : World where
  target := { world.target with memory := zeroed world.target.memory address (pages size) }
  blocks := world.blocks ++ [⟨address, pages size⟩]
  symbols := world.symbols

/-- `Injector::free`. -/
def World.free (world : World) (env : Env) (address : Nat) : World × Result Unit :=
  match env.freed address with
  | some failure => (world, .error failure)
  | none => ({ world with blocks := world.blocks.filter fun block => block.base != address }, .ok ())

/-- One contiguous run of assembled bytes and where it goes. -/
structure Block where
  address : Nat
  bytes : List UInt8
  intoAllocation : Bool
  deriving DecidableEq, Repr

structure Allocation where
  name : Text
  address : Nat
  size : Nat
  deriving DecidableEq, Repr

structure CompileResult where
  blocks : List Block := []
  allocations : List Allocation := []
  registerSymbols : List (Text × Nat) := []
  unregisterSymbols : List Text := []
  deallocations : List Text := []
  notes : List String := []
  deriving DecidableEq, Repr

/-- What the directives read so far have made known. -/
structure Known where
  world : World
  symbols : SymbolMap
  defines : DefineMap := []
  declaredLabels : List Text := []
  allocatedRanges : List (Nat × Nat) := []
  pretendArena : Nat := 0
  result : CompileResult := {}

/-- The value a name has, or the place an expression names. -/
def whereIs (env : Env) (number : Nat) (s : Known) (name : Text) : Result Nat :=
  match find caseLess name s.symbols with
  | some address => .ok address
  | none =>
      resolve env.resolver (env.view number s.world.target.memory) s.world.symbols name

def defineName : List Text → Known → Except String Known
  | [name, text], s =>
      if name.isEmpty then .error "define takes a name and the text to substitute for it."
      else .ok { s with defines := assign caseLess name text s.defines }
  | _, _ => .error "define takes a name and the text to substitute for it."

/-- A directive of one name. -/
def oneName (usage : String) (use : Text → Known → Known) : List Text → Known → Except String Known
  | [name], s => if name.isEmpty then .error usage else .ok (use name s)
  | _, _ => .error usage

def labelName : List Text → Known → Except String Known :=
  oneName "label takes one name." fun name s =>
    { s with declaredLabels := s.declaredLabels ++ [name] }

def registersymbol : List Text → Known → Except String Known :=
  oneName "registersymbol takes one name." fun name s =>
    { s with result := { s.result with registerSymbols := s.result.registerSymbols ++ [(name, 0)] } }

def unregistersymbol : List Text → Known → Except String Known :=
  oneName "unregistersymbol takes one name." fun name s =>
    { s with result := { s.result with unregisterSymbols := s.result.unregisterSymbols ++ [name] } }

def dealloc : List Text → Known → Except String Known :=
  oneName "dealloc takes one name." fun name s =>
    { s with result := { s.result with deallocations := s.result.deallocations ++ [name] } }

/-- What an allocation is to stay near, zero for nothing. -/
def nearHint (env : Env) (number : Nat) (near : List Text) (s : Known) : Except String Nat :=
  match near with
  | [] => .ok 0
  | place :: _ =>
      match whereIs env number s place with
      | .ok address => .ok address
      | .error _ =>
          .error ("\"" ++ String.ofList place ++ "\" is not known yet, so the allocation cannot be " ++
            "placed near it. Scan for it first.")

/-- A block in the target, or, on a check run, somewhere plausible. -/
def placeBlock (env : Env) (execute : Bool) (number : Nat) (name : Text) (size hint : Nat)
    (s : Known) : Except String (Nat × Known) :=
  if execute then
    match env.allocator.allocate number s.world.blocks size hint with
    | .error failure => .error ("alloc(" ++ String.ofList name ++ ") failed: " ++ failure.message)
    | .ok address => .ok (address, { s with world := s.world.allocated address size })
  else
    let arena :=
      if s.pretendArena = 0 then
        if hint ≠ 0 then (hint + 0x10000) % addressSpace else 0x10000000
      else s.pretendArena
    .ok (arena, { s with pretendArena := (arena + size + 0x1000) % addressSpace })

/-- The name of a block, once the block has its address. -/
def bindBlock (execute : Bool) (name : Text) (address size hint : Nat) (s : Known) : Known :=
  { s with
    symbols := assign caseLess name address s.symbols
    declaredLabels := s.declaredLabels ++ [name]
    allocatedRanges := s.allocatedRanges ++ [(address, (address + size) % addressSpace)]
    result := { s.result with
      allocations := s.result.allocations ++ [⟨name, address, size⟩]
      notes := s.result.notes ++
        ["alloc " ++ String.ofList name ++ " = " ++ hexString address ++ " (" ++ toString size ++
          " bytes)" ++ (if hint ≠ 0 then ", within reach of " ++ hexString hint else "") ++
          (if execute then "" else " [not actually allocated: this was a check]")] } }

def alloc (env : Env) (execute : Bool) (number : Nat) : List Text → Known → Except String Known
  | name :: sizeText :: near, s =>
      if 1 < near.length then
        .error "alloc takes a name, a size, and optionally something to stay near."
      else
        let size := (parseAddress sizeText).getD 0
        if size = 0 then
          .error ("\"" ++ String.ofList sizeText ++
            "\" is not a size. Sizes are hexadecimal, like 0x100.")
        else
          match nearHint env number near s with
          | .error message => .error message
          | .ok hint =>
              match placeBlock env execute number name size hint s with
              | .error message => .error message
              | .ok (address, s) => .ok (bindBlock execute name address size hint s)
  | _, _ => .error "alloc takes a name, a size, and optionally something to stay near."

/-- What `aobscanmodule` finds, bound to its name. -/
def scanModule (env : Env) (number : Nat) (args : List Text) (s : Known) : Except String Known :=
  match aobscanmodule noFloats (env.view number s.world.target.memory) env.resolver.widen args with
  | .error message => .error message
  | .ok (name, address, note) =>
      .ok { s with
        symbols := assign caseLess name address s.symbols
        declaredLabels := s.declaredLabels ++ [name]
        result := { s.result with notes := s.result.notes ++ [note] } }

/-- Whether bytes are those of a pattern, wildcards apart. -/
def agrees (expected : HexPattern) (actual : List UInt8) : Bool :=
  (expected.bytes.zip (expected.mask.zip actual)).all fun (byte, mask, here) =>
    mask == 0 || here == byte

def assertBytes (env : Env) (number : Nat) : List Text → Known → Except String Known
  | [place, text], s =>
      match parseHexPattern text with
      | none => .error ("\"" ++ String.ofList text ++ "\" is not a byte pattern.")
      | some expected =>
          match whereIs env number s place with
          | .error failure =>
              .error ("assert could not work out where \"" ++ String.ofList place ++ "\" is: " ++
                failure.message)
          | .ok address =>
              let size := expected.bytes.length
              let unread := "assert could not read " ++ toString size ++ " byte(s) at " ++
                hexString address ++ "."
              match (env.view number s.world.target.memory).readBytes address size with
              | .error _ => .error unread
              | .ok actual =>
                  if actual.length ≠ size then .error unread
                  else if !agrees expected actual then
                    .error ("assert failed at " ++ hexString address ++ ": expected " ++
                      String.ofList (bytesToHex expected.bytes) ++ " but found " ++
                      String.ofList (bytesToHex actual) ++
                      ". Nothing has been written. This is the check doing its job -- the " ++
                      "code this script was written against is not what is there now.")
                  else
                    .ok { s with result := { s.result with
                      notes := s.result.notes ++ ["assert " ++ String.ofList place ++ " ok"] } }
  | _, _ => .error "assert takes an address and the bytes that should be there."

def runDirective (env : Env) (execute : Bool) (number : Nat) (directive : Directive) (s : Known) :
    Except String Known :=
  if directive.name = "define".toList then defineName directive.args s
  else if directive.name = "label".toList then labelName directive.args s
  else if directive.name = "alloc".toList then alloc env execute number directive.args s
  else if directive.name = "aobscanmodule".toList then scanModule env number directive.args s
  else if directive.name = "assert".toList then assertBytes env number directive.args s
  else if directive.name = "registersymbol".toList then registersymbol directive.args s
  else if directive.name = "unregistersymbol".toList then unregistersymbol directive.args s
  else if directive.name = "dealloc".toList then dealloc directive.args s
  else
    .error ("\"" ++ String.ofList directive.name ++ "\" is not a directive this assembler knows.")

def failAt (line : Line) (message : String) : String :=
  "Line " ++ toString line.number ++ ": " ++ message

/-- One line of the first pass. -/
def readLine (env : Env) (execute : Bool) (line : Line) (s : Known) : Except String Known :=
  let expanded := substituteText line.text s.defines
  match parseDirective expanded with
  | none =>
      match parseLabelDefinition expanded with
      | some label => .ok { s with declaredLabels := s.declaredLabels ++ [label] }
      | none => .ok s
  | some directive =>
      match runDirective env execute line.number directive s with
      | .error message => .error (failAt line message)
      | .ok s => .ok s

/-- The first pass. What the directives before a failing one did to the target stays done. -/
def readLines (env : Env) (execute : Bool) : List Line → Known → World × Except String Known
  | [], s => (s.world, .ok s)
  | line :: rest, s =>
      match readLine env execute line s with
      | .error message => (s.world, .error message)
      | .ok s => readLines env execute rest s

/-- A pass that comes to its end has come through the line and through the rest. -/
theorem readLines_cons_ok {env : Env} {execute : Bool} {line : Line} {rest : List Line}
    {s known : Known} (ok : (readLines env execute (line :: rest) s).2 = .ok known) :
    ∃ after, readLine env execute line s = .ok after ∧
      (readLines env execute rest after).2 = .ok known := by
  unfold readLines at ok
  split at ok
  · cases ok
  · rename_i after step
    exact ⟨after, step, ok⟩

/-- The next granule past every block. -/
def nextGranule (blocks : List Region) : Nat :=
  blocks.foldr (fun block top => max (block.base + block.size) top) 0 / 0x10000 * 0x10000 + 0x10000

theorem lt_nextGranule {blocks : List Region} {block : Region} (member : block ∈ blocks) :
    block.base < nextGranule blocks := by
  have below : block.base ≤ blocks.foldr (fun block top => max (block.base + block.size) top) 0 := by
    induction blocks with
    | nil => contradiction
    | cons first rest ih =>
        rw [List.foldr_cons]
        rcases List.mem_cons.mp member with rfl | inRest
        · exact Nat.le_trans (Nat.le_add_right _ _) (Nat.le_max_left _ _)
        · exact Nat.le_trans (ih inRest) (Nat.le_max_right _ _)
  unfold nextGranule
  omega

/-- A target without modules, an allocator that goes upwards, and one instruction. -/
def bench : Env where
  readable := fun _ _ => true
  resolver := ⟨wide ∘ String.ofList, fun _ _ _ => fail "no exports"⟩
  assemble := fun text _ _ =>
    if text = "nop".toList then .ok [0x90] else fail "Invalid mnemonic"
  decode := fun _ bytes => if bytes.head? = some 0x90 then some 1 else none
  allocator :=
    { allocate := fun _ blocks _ _ => .ok (nextGranule blocks)
      fresh := fun _ _ _ _ _ answered _ member same =>
        Nat.lt_irrefl _ (Except.ok.inj answered ▸ same ▸ lt_nextGranule member) }

/-- Nothing but nops. -/
def bareWorld : World where
  target := ⟨{}, fun _ => 0x90⟩

end PointerLab.AutoAssembler
