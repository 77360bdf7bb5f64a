import PointerLab.AutoAssembler

set_option autoImplicit false

/- The second pass of `compile`: the layout, iterated to a fixed point, and the checks an
accepted layout has passed. -/
namespace PointerLab.AutoAssembler

open Domain OrderedMap SymbolTable

/-- What `compile` knows when the layout begins: the target, the names with a value, and the
texts to substitute. -/
structure Section where
  env : Env
  world : World
  symbols : SymbolMap
  defines : DefineMap
  allocatedRanges : List (Nat × Nat)

/-- Ranges end where `uintptr_t` arithmetic puts their end. -/
def insideAllocation (ranges : List (Nat × Nat)) (address : Nat) : Bool :=
  ranges.any fun range => range.1 ≤ address && address < range.2

/-- Where one layout pass has got to: the labels it has computed, its blocks, the latest
first, and the address to assemble at, once there is one. -/
structure Pass where
  next : SymbolMap
  blocks : List Block := []
  writeAddress : Option Nat := none

namespace Pass

/-- What follows is assembled at an address. -/
def startAt (ranges : List (Nat × Nat)) (address : Nat) (pass : Pass) : Pass :=
  { pass with
    blocks := ⟨address, [], insideAllocation ranges address⟩ :: pass.blocks
    writeAddress := some address }

/-- Bytes at the address to assemble at, in the latest block if that is where it ends. -/
def emit (ranges : List (Nat × Nat)) (address : Nat) (bytes : List UInt8) (pass : Pass) : Pass :=
  { pass with
    blocks :=
      match pass.blocks with
      | [] => [⟨address, bytes, insideAllocation ranges address⟩]
      | block :: earlier =>
          if (block.address + block.bytes.length) % addressSpace ≠ address then
            ⟨address, bytes, insideAllocation ranges address⟩ :: block :: earlier
          else { block with bytes := block.bytes ++ bytes } :: earlier
    writeAddress := some ((address + bytes.length) % addressSpace) }

end Pass

/-- The bytes of a line of data, or of an instruction in the words of the assembler. -/
def lineBytes (s : Section) (address : Nat) (expanded assembly : Text) :
    Except String (List UInt8) :=
  match parseData expanded with
  | some bytes => .ok bytes
  | none =>
      if dataWidth (lower (expanded.takeWhile fun c => !(c == ' ' || c == '\t'))) ≠ 0 then
        .error ("\"" ++ String.ofList expanded ++
          "\" is not readable as data. Values are hexadecimal.")
      else
        match s.env.assemble assembly address s.env.bitness with
        | .error failure => .error failure.message
        | .ok bytes => .ok bytes

/-- One line of a layout pass. -/
def layoutLine (s : Section) (substitutions : DefineMap) (line : Line) (pass : Pass) :
    Except String Pass :=
  let expanded := substituteText line.text s.defines
  if (parseDirective expanded).isSome then .ok pass
  else
    match parseLabelDefinition expanded with
    | some label =>
        match find caseLess label s.symbols with
        | some anchor => .ok (pass.startAt s.allocatedRanges anchor)
        | none =>
            match pass.writeAddress with
            | none =>
                .error (failAt line ("\"" ++ String.ofList label ++ "\" has nothing to be relative " ++
                  "to yet. Start the section at an allocation or a scanned address."))
            | some address => .ok { pass with next := assign caseLess label address pass.next }
    | none =>
        match parseOriginExpression expanded with
        | some origin =>
            match resolve s.env.resolver (s.env.view line.number s.world.target.memory)
                s.world.symbols origin with
            | .error failure =>
                .error (failAt line ("\"" ++ String.ofList origin ++
                  "\" is not somewhere this script can assemble at: " ++ failure.message))
            | .ok address => .ok (pass.startAt s.allocatedRanges address)
        | none =>
            match pass.writeAddress with
            | none =>
                .error (failAt line ("There is no address to assemble at yet. A section begins by " ++
                  "naming one, usually with aobscanmodule or alloc."))
            | some address =>
                match lineBytes s address expanded (substituteText expanded substitutions) with
                | .error message => .error (failAt line message)
                | .ok bytes => .ok (pass.emit s.allocatedRanges address bytes)

/-- The lines of a pass, one after the other. -/
def layoutLines (s : Section) (substitutions : DefineMap) : List Line → Pass → Except String Pass
  | [], pass => .ok pass
  | line :: rest, pass =>
      match layoutLine s substitutions line pass with
      | .error message => .error message
      | .ok pass => layoutLines s substitutions rest pass

def layoutPass (s : Section) (lines : List Line) (layout : SymbolMap) : Except String Pass :=
  layoutLines s (asSubstitutions layout) lines { next := s.symbols }

/-- Whether the labels of a pass are where the layout had them, and the layout with them. -/
def settle : SymbolMap → SymbolMap → Bool × SymbolMap
  | [], layout => (true, layout)
  | (name, address) :: rest, layout =>
      let (settled, later) := settle rest (assign caseLess name address layout)
      (find caseLess name layout == some address && settled, later)

/-- The passes of the layout, as many as are left: the blocks of the one that moved nothing
and the layout it used, or nothing when none did. -/
def layoutPasses (s : Section) (lines : List Line) :
    Nat → SymbolMap → Except String (Option (List Block × SymbolMap))
  | 0, _ => .ok none
  | passes + 1, layout =>
      match layoutPass s lines layout with
      | .error message => .error message
      | .ok pass =>
          match settle pass.next layout with
          | (true, layout) => .ok (some (pass.blocks.reverse, layout))
          | (false, layout) => layoutPasses s lines passes layout

def maxLayoutPasses : Nat := 8

/-- The lowest address the script knows, zero for none; a zero never stays the lowest. -/
def lowestKnown (symbols : SymbolMap) : Nat :=
  symbols.foldl (fun lowest entry =>
    if lowest = 0 ∨ entry.2 < lowest then entry.2 else lowest) 0

/-- What a label is worth before the pass that defines it. -/
def placeholder (symbols : SymbolMap) : Nat :=
  let lowest := lowestKnown symbols
  if lowest ≠ 0 then (lowest + 0x20000000) % addressSpace else 0x20000000

/-- The layout the first pass starts from. -/
def firstLayout (symbols : SymbolMap) (declaredLabels : List Text) : SymbolMap :=
  declaredLabels.foldl (fun layout label => emplace caseLess label (placeholder symbols) layout)
    symbols

/-- The first label that was declared and is still on its placeholder. -/
def undefinedLabel (symbols layout : SymbolMap) (declaredLabels : List Text) : Option Text :=
  declaredLabels.find? fun label =>
    find caseLess label layout == some (placeholder symbols) &&
      (find caseLess label symbols).isNone

/-- The symbols to publish, with the values the layout gives them. -/
def registeredValues (layout : SymbolMap) : List (Text × Nat) → Except String (List (Text × Nat))
  | [] => .ok []
  | (name, _) :: rest =>
      match find caseLess name layout with
      | none =>
          .error ("registersymbol(" ++ String.ofList name ++
            ") names something the script never defines.")
      | some address =>
          match registeredValues layout rest with
          | .error message => .error message
          | .ok values => .ok ((name, address) :: values)

/-- What `compile` leaves: the result, and the names for the stored state. -/
structure Compiled where
  result : CompileResult
  layout : SymbolMap := []

def unsettled : String :=
  "The layout did not settle after " ++ toString maxLayoutPasses ++ " passes: an instruction's " ++
    "length keeps changing the label it depends on. Force a long encoding (for example " ++
    "`jmp near`) to break the cycle."

def neverDefined (label : Text) : String :=
  "\"" ++ String.ofList label ++ "\" was declared with label() but never defined. Add a line " ++
    "reading \"" ++ String.ofList label ++ ":\" where it belongs."

def Known.section (env : Env) (s : Known) : Section :=
  ⟨env, s.world, s.symbols, s.defines, s.allocatedRanges⟩

/-- The checks after the passes of the layout. -/
def acceptLayout (s : Known) :
    Except String (Option (List Block × SymbolMap)) → Except String Compiled
  | .error message => .error message
  | .ok none => .error unsettled
  | .ok (some (blocks, layout)) =>
      match undefinedLabel s.symbols layout s.declaredLabels with
      | some label => .error (neverDefined label)
      | none =>
          match registeredValues layout s.result.registerSymbols with
          | .error message => .error message
          | .ok values =>
              .ok ⟨{ s.result with
                registerSymbols := values
                blocks := blocks.filter (!·.bytes.isEmpty) }, layout⟩

/-- The second half of `compile`. -/
def layOut (env : Env) (lines : List Line) (s : Known) : Except String Compiled :=
  acceptLayout s (layoutPasses (s.section env) lines maxLayoutPasses
    (firstLayout s.symbols s.declaredLabels))

/-- `compile`, from the names of the stored state. -/
def compile (env : Env) (execute : Bool) (source : Text) (enableSection : Bool)
    (stored : SymbolMap) (world : World) : World × Except String Compiled :=
  let lines := sectionLines source enableSection
  if lines.isEmpty then (world, .ok ⟨{}, []⟩)
  else if !env.attached then (world, .error "Attach to a process before running a script.")
  else
    match readLines env execute lines { world, symbols := assignAll caseLess stored [] } with
    | (world, .error message) => (world, .error message)
    | (world, .ok s) => (world, layOut env lines s)

/-- What an accepted second half comes to. -/
theorem layOut_ok {env : Env} {lines : List Line} {s : Known} {compiled : Compiled}
    (laid : layOut env lines s = .ok compiled) :
    ∃ blocks values,
      layoutPasses (s.section env) lines maxLayoutPasses
        (firstLayout s.symbols s.declaredLabels) = .ok (some (blocks, compiled.layout)) ∧
      registeredValues compiled.layout s.result.registerSymbols = .ok values ∧
      compiled.result = { s.result with
        registerSymbols := values
        blocks := blocks.filter (!·.bytes.isEmpty) } := by
  rw [layOut] at laid
  unfold acceptLayout at laid
  split at laid
  · contradiction
  · contradiction
  · rename_i blocks layout accepted
    split at laid
    · contradiction
    · split at laid
      · contradiction
      · rename_i values registered
        cases laid
        exact ⟨blocks, values, accepted, registered, rfl⟩

/-- A section compiles when it is empty, or when both passes accept it. -/
theorem compile_ok {env : Env} {execute enableSection : Bool} {source : Text} {stored : SymbolMap}
    {world after : World} {compiled : Compiled}
    (compiles : compile env execute source enableSection stored world = (after, .ok compiled)) :
    (sectionLines source enableSection = [] ∧ after = world ∧ compiled = ⟨{}, []⟩) ∨
      ∃ known,
        readLines env execute (sectionLines source enableSection)
          { world, symbols := assignAll caseLess stored [] } = (after, .ok known) ∧
        layOut env (sectionLines source enableSection) known = .ok compiled := by
  simp only [compile] at compiles
  split at compiles
  · rename_i empty
    cases compiles
    exact Or.inl ⟨List.isEmpty_iff.mp empty, rfl, rfl⟩
  · split at compiles
    · cases compiles
    · split at compiles
      · cases compiles
      · rename_i known reads
        obtain ⟨rfl, laid⟩ := Prod.mk.inj compiles
        exact Or.inr ⟨known, reads, laid⟩

end PointerLab.AutoAssembler
