import PointerLab.AutoAssemblerPlacement

set_option autoImplicit false

/- A section cut at its origins. Each origin opens one stretch, that of the lines up to the next
origin, and the blocks of an accepted layout are these stretches. -/
namespace PointerLab.AutoAssembler

open Domain OrderedMap SymbolTable

/-- An origin, and the bytes of the lines behind it. -/
structure Stretch where
  start : Nat
  bytes : List UInt8
  deriving DecidableEq, Repr

/-- The lines from `here` on with every name an instruction mentions replaced by its address: the
bytes before the first origin, and the stretches. -/
def stretches (s : Section) (addresses : Addresses) :
    Option Nat → List Line → Option (List UInt8 × List Stretch)
  | _, [] => some ([], [])
  | here, line :: rest =>
      let expanded := substituteText line.text s.defines
      let opened := fun origin =>
        (stretches s addresses (some origin) rest).map fun (bytes, later) =>
          ([], ⟨origin, bytes⟩ :: later)
      if (parseDirective expanded).isSome then stretches s addresses here rest
      else
        match parseLabelDefinition expanded with
        | some label =>
            match find caseLess label s.symbols with
            | some anchor => opened anchor
            | none => if here.isNone then none else stretches s addresses here rest
        | none =>
            match parseOriginExpression expanded with
            | some origin =>
                match resolve s.env.resolver (s.env.view line.number s.world.target.memory)
                    s.world.symbols origin with
                | .error _ => none
                | .ok address => opened address
            | none =>
                match here with
                | none => none
                | some address =>
                    match lineBytes s address expanded
                        (replaceNames (fun name => (addresses name).map toHex) expanded) with
                    | .error _ => none
                    | .ok bytes =>
                        (stretches s addresses (some ((address + bytes.length) % addressSpace))
                          rest).map fun (more, later) => (bytes ++ more, later)

/-- The stretches of a section, which begins without an address to assemble at. -/
def cutAtOrigins (s : Section) (addresses : Addresses) (lines : List Line) :
    Option (List Stretch) :=
  (stretches s addresses none lines).map Prod.snd

/-- A stretch as a block: what starts in an allocation is taken to lie there. -/
def Stretch.block (ranges : List (Nat × Nat)) (stretch : Stretch) : Block :=
  ⟨stretch.start, stretch.bytes, insideAllocation ranges stretch.start⟩

/-- The blocks that have bytes. -/
def filled (blocks : List Block) : List Block := blocks.filter (!·.bytes.isEmpty)

def blocksOf (ranges : List (Nat × Nat)) (pieces : List Stretch) : List Block :=
  filled (pieces.map (Stretch.block ranges))

variable {s : Section} {substitutions : DefineMap} {addresses : Addresses} {lines : List Line}
  {pass after : Pass}

/-- The latest block with bytes at its end. -/
def grow (bytes : List UInt8) : List Block → List Block
  | [] => []
  | latest :: earlier => { latest with bytes := latest.bytes ++ bytes } :: earlier

/-- The latest block of a pass is where the next bytes go: at its end, or, where the end has another
spelling, to the very place at which it starts. -/
def Open (s : Section) (pass : Pass) : Prop :=
  ∀ address, pass.writeAddress = some address →
    ∃ latest earlier, pass.blocks = latest :: earlier ∧
      latest.intoAllocation = insideAllocation s.allocatedRanges latest.address ∧
      ((latest.address + latest.bytes.length) % addressSpace = address ∨
        (latest.bytes = [] ∧ latest.address = address))

theorem open_startAt (address : Nat) (pass : Pass) :
    Open s (pass.startAt s.allocatedRanges address) := by
  intro other here
  cases here
  exact ⟨_, pass.blocks, rfl, rfl, .inr ⟨rfl, rfl⟩⟩

theorem filled_append (first second : List Block) :
    filled (first ++ second) = filled first ++ filled second := List.filter_append first second

theorem filled_startAt (address : Nat) (bytes : List UInt8) (pass : Pass) :
    filled (grow bytes (pass.startAt s.allocatedRanges address).blocks).reverse =
      filled pass.blocks.reverse ++ filled [Stretch.block s.allocatedRanges ⟨address, bytes⟩] := by
  rw [Pass.startAt, grow, List.reverse_cons, filled_append]
  rfl

theorem grow_nil (blocks : List Block) : grow [] blocks = blocks := by
  cases blocks with
  | nil => rfl
  | cons latest earlier => rw [grow, List.append_nil]

/-- Bytes that are emitted lengthen what is open, by themselves and by what comes behind them. -/
theorem filled_emit {address : Nat} (opened : Open s pass) (here : pass.writeAddress = some address)
    (bytes more : List UInt8) :
    Open s (pass.emit s.allocatedRanges address bytes) ∧
      filled (grow more (pass.emit s.allocatedRanges address bytes).blocks).reverse =
        filled (grow (bytes ++ more) pass.blocks).reverse := by
  obtain ⟨latest, earlier, blocks, into, place⟩ := opened address here
  unfold Open Pass.emit
  rw [blocks]
  dsimp only
  by_cases ends : (latest.address + latest.bytes.length) % addressSpace = address
  · rw [if_neg (not_not.mpr ends)]
    constructor
    · rintro other ⟨⟩
      refine ⟨_, earlier, rfl, into, .inl ?_⟩
      rw [List.length_append, ← Nat.add_assoc, ← ends, Nat.mod_add_mod]
    · rw [grow, grow, List.append_assoc]
  · obtain ⟨empty, rfl⟩ := place.resolve_left ends
    rw [if_pos ends]
    constructor
    · rintro other ⟨⟩
      exact ⟨_, _, rfl, rfl, .inl rfl⟩
    · rw [grow, grow, List.reverse_cons, List.reverse_cons, List.reverse_cons, filled_append,
        filled_append, filled_append, empty, into]
      simp [filled, empty]

/-- What a layout pass builds are the stretches of its lines. -/
theorem layoutLines_stretches
    (replaces : ∀ text, substituteText text substitutions =
      replaceNames (fun name => (addresses name).map toHex) text)
    (opened : Open s pass) (laid : layoutLines s substitutions lines pass = .ok after) :
    ∃ bytes pieces, stretches s addresses pass.writeAddress lines = some (bytes, pieces) ∧
      filled after.blocks.reverse =
        filled (grow bytes pass.blocks).reverse ++ blocksOf s.allocatedRanges pieces := by
  induction lines generalizing pass with
  | nil =>
      cases laid
      refine ⟨[], [], rfl, ?_⟩
      rw [grow_nil]
      exact (List.append_nil _).symm
  | cons line rest ih =>
      have origin (address : Nat)
          (laid : layoutLines s substitutions rest (pass.startAt s.allocatedRanges address) =
            .ok after) :
          ∃ bytes pieces, stretches s addresses (some address) rest = some (bytes, pieces) ∧
            filled after.blocks.reverse = filled (grow [] pass.blocks).reverse ++
              blocksOf s.allocatedRanges (⟨address, bytes⟩ :: pieces) := by
        obtain ⟨bytes, pieces, cut, built⟩ := ih (open_startAt address pass) laid
        refine ⟨bytes, pieces, cut, ?_⟩
        rw [built, filled_startAt, grow_nil, List.append_assoc, blocksOf, blocksOf, ← filled_append]
        rfl
      rw [layoutLines] at laid
      split at laid
      · contradiction
      · rename_i middle stepped
        cases layoutLine_ok stepped with
        | directive reads =>
            obtain ⟨bytes, pieces, cut, built⟩ := ih opened laid
            refine ⟨bytes, pieces, ?_, built⟩
            simp only [stretches, reads, ↓reduceIte, cut]
        | anchor label address plain reads known =>
            obtain ⟨bytes, pieces, cut, built⟩ := origin address laid
            refine ⟨[], ⟨address, bytes⟩ :: pieces, ?_, built⟩
            simp only [stretches, plain, reads, known, cut, Bool.false_eq_true, ↓reduceIte,
              Option.map_some]
        | label label address plain reads unknown here =>
            obtain ⟨bytes, pieces, cut, built⟩ :=
              @ih { pass with next := assign caseLess label address pass.next } opened laid
            refine ⟨bytes, pieces, ?_, built⟩
            have some_ : pass.writeAddress.isNone = false := by rw [here, Option.isNone_some]
            simp only [stretches, plain, reads, unknown, some_, Bool.false_eq_true, ↓reduceIte]
            exact cut
        | origin name address plain unlabelled reads resolves =>
            obtain ⟨bytes, pieces, cut, built⟩ := origin address laid
            refine ⟨[], ⟨address, bytes⟩ :: pieces, ?_, built⟩
            simp only [stretches, plain, unlabelled, reads, resolves, cut, Bool.false_eq_true,
              ↓reduceIte, Option.map_some]
        | code address bytes plain unlabelled unplaced here assembles =>
            obtain ⟨still, _⟩ := filled_emit opened here bytes []
            obtain ⟨more, pieces, cut, built⟩ := ih still laid
            refine ⟨bytes ++ more, pieces, ?_, ?_⟩
            · change stretches s addresses (some ((address + bytes.length) % addressSpace)) rest =
                some (more, pieces) at cut
              rw [replaces] at assembles
              simp only [stretches, plain, unlabelled, unplaced, here, assembles, cut,
                Bool.false_eq_true, ↓reduceIte, Option.map_some]
            · rw [built, (filled_emit opened here bytes more).2]

/-- What a section compiles to is its stretches, under the layout that was accepted, and the
allocations of its directives. -/
theorem compile_stretches {env : Env} {execute enableSection : Bool} {source : Text}
    {stored : SymbolMap} {world ended : World} {compiled : Compiled}
    (compiles : compile env execute source enableSection stored world = (ended, .ok compiled)) :
    ∃ known pieces,
      readLines env execute (sectionLines source enableSection)
        { world, symbols := assignAll caseLess stored [] } = (ended, .ok known) ∧
      cutAtOrigins (known.section env) (find caseLess · compiled.layout)
        (sectionLines source enableSection) = some pieces ∧
      compiled.result.blocks = blocksOf known.allocatedRanges pieces ∧
      compiled.result.allocations = known.result.allocations := by
  rcases compile_ok compiles with ⟨empty, rfl, rfl⟩ | ⟨known, reads, laidOut⟩
  · rw [empty]
    exact ⟨_, [], rfl, rfl, rfl, rfl⟩
  · obtain ⟨blocks, values, accepted, _, result⟩ := layOut_ok laidOut
    obtain ⟨used, pass, laid, rfl, _, same⟩ := layoutPasses_settled accepted
    have replaces (text : Text) : substituteText text (asSubstitutions used) =
        replaceNames (fun name => (find caseLess name compiled.layout).map toHex) text := by
      rw [substituteText_symbols]
      simp only [same]
    have bare : Open (known.section env) { next := known.symbols } := by
      intro address here
      contradiction
    obtain ⟨bytes, pieces, cut, built⟩ := layoutLines_stretches replaces bare laid
    refine ⟨known, pieces, reads, ?_, ?_, ?_⟩
    · rw [cutAtOrigins, cut, Option.map_some]
    · rw [result]
      exact built
    · rw [result]

end PointerLab.AutoAssembler
