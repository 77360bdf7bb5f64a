import PointerLab.AutoAssemblerLayout

set_option autoImplicit false

/- Where an accepted layout puts the lines of its section, and when every name stands for
the one place its label is written. -/
namespace PointerLab.AutoAssembler

open Domain OrderedMap SymbolTable

/-- Addresses for names. -/
abbrev Addresses := Text → Option Nat

/-- A line that has a place: the name it defines, if any, and the bytes it comes to. -/
structure Placement where
  label : Option Text := none
  address : Nat
  bytes : List UInt8 := []
  deriving DecidableEq, Repr

/-- The lines of a section placed back to back from their origins, with every name an
instruction mentions replaced by its address. `here` is where the last line ended. -/
def place (s : Section) (addresses : Addresses) : Option Nat → List Line → Option (List Placement)
  | _, [] => some []
  | here, line :: rest =>
      let expanded := substituteText line.text s.defines
      if (parseDirective expanded).isSome then place s addresses here rest
      else
        match parseLabelDefinition expanded with
        | some label =>
            match (find caseLess label s.symbols).or here with
            | none => none
            | some address =>
                (place s addresses (some address) rest).map (⟨some label, address, []⟩ :: ·)
        | none =>
            match parseOriginExpression expanded with
            | some origin =>
                match resolve s.env.resolver (s.env.view line.number s.world.target.memory)
                    s.world.symbols origin with
                | .error _ => none
                | .ok address =>
                    (place s addresses (some address) rest).map (⟨none, address, []⟩ :: ·)
            | none =>
                match here with
                | none => none
                | some address =>
                    match lineBytes s address expanded
                        (replaceNames (fun name => (addresses name).map toHex) expanded) with
                    | .error _ => none
                    | .ok bytes =>
                        (place s addresses (some ((address + bytes.length) % addressSpace)) rest).map
                          (⟨none, address, bytes⟩ :: ·)

/-- Case makes no difference to a name. -/
def Addresses.CaseBlind (addresses : Addresses) : Prop :=
  ∀ first second, lower first = lower second → addresses first = addresses second

/-- Every line that defines a name stands at the name's address. -/
def Addresses.Defined (addresses : Addresses) (placements : List Placement) : Prop :=
  ∀ placement ∈ placements, ∀ name, placement.label = some name →
    addresses name = some placement.address

/-- Lines that define the same name stand at the same address. -/
def Agree (placements : List Placement) : Prop :=
  ∀ first ∈ placements, ∀ second ∈ placements, ∀ name other, first.label = some name →
    second.label = some other → lower name = lower other → first.address = second.address

/-- The bytes of a placement lie in a block, at the address they were placed at. -/
def Shows (blocks : List Block) (placement : Placement) : Prop :=
  ∃ block ∈ blocks, ∃ front back, block.bytes = front ++ placement.bytes ++ back ∧
    (block.address + front.length) % addressSpace = placement.address % addressSpace

/-- Blocks hold the bytes of the placements, all of them and nothing else. -/
def Emitted (blocks : List Block) (placements : List Placement) : Prop :=
  blocks.flatMap (·.bytes) = placements.flatMap (·.bytes) ∧
    ∀ placement ∈ placements, placement.bytes ≠ [] → Shows blocks placement

/-- All that a line of a layout pass can do. -/
inductive LineStep (s : Section) (substitutions : DefineMap) (line : Line) (pass : Pass) :
    Pass → Prop
  | directive (reads : (parseDirective (substituteText line.text s.defines)).isSome = true) :
      LineStep s substitutions line pass pass
  | anchor (label : Text) (address : Nat)
      (plain : (parseDirective (substituteText line.text s.defines)).isSome = false)
      (reads : parseLabelDefinition (substituteText line.text s.defines) = some label)
      (known : find caseLess label s.symbols = some address) :
      LineStep s substitutions line pass (pass.startAt s.allocatedRanges address)
  | label (label : Text) (address : Nat)
      (plain : (parseDirective (substituteText line.text s.defines)).isSome = false)
      (reads : parseLabelDefinition (substituteText line.text s.defines) = some label)
      (unknown : find caseLess label s.symbols = none) (here : pass.writeAddress = some address) :
      LineStep s substitutions line pass
        { pass with next := assign caseLess label address pass.next }
  | origin (origin : Text) (address : Nat)
      (plain : (parseDirective (substituteText line.text s.defines)).isSome = false)
      (unlabelled : parseLabelDefinition (substituteText line.text s.defines) = none)
      (reads : parseOriginExpression (substituteText line.text s.defines) = some origin)
      (resolves : resolve s.env.resolver (s.env.view line.number s.world.target.memory)
        s.world.symbols origin = .ok address) :
      LineStep s substitutions line pass (pass.startAt s.allocatedRanges address)
  | code (address : Nat) (bytes : List UInt8)
      (plain : (parseDirective (substituteText line.text s.defines)).isSome = false)
      (unlabelled : parseLabelDefinition (substituteText line.text s.defines) = none)
      (unplaced : parseOriginExpression (substituteText line.text s.defines) = none)
      (here : pass.writeAddress = some address)
      (assembles : lineBytes s address (substituteText line.text s.defines)
        (substituteText (substituteText line.text s.defines) substitutions) = .ok bytes) :
      LineStep s substitutions line pass (pass.emit s.allocatedRanges address bytes)

variable {s : Section} {substitutions : DefineMap} {line : Line} {pass after : Pass}

theorem layoutLine_ok (laid : layoutLine s substitutions line pass = .ok after) :
    LineStep s substitutions line pass after := by
  simp only [layoutLine] at laid
  split at laid
  · rename_i reads
    cases laid
    exact .directive reads
  · rename_i plain
    rw [Bool.not_eq_true] at plain
    split at laid
    · rename_i label reads
      split at laid
      · rename_i address known
        cases laid
        exact .anchor label address plain reads known
      · rename_i unknown
        split at laid
        · contradiction
        · rename_i address here
          cases laid
          exact .label label address plain reads unknown here
    · rename_i unlabelled
      split at laid
      · rename_i origin reads
        split at laid
        · contradiction
        · rename_i address resolves
          cases laid
          exact .origin origin address plain unlabelled reads resolves
      · rename_i unplaced
        split at laid
        · contradiction
        · rename_i address here
          split at laid
          · contradiction
          · rename_i bytes assembles
            cases laid
            exact .code address bytes plain unlabelled unplaced here assembles

/-- The bytes of a pass so far, in the order of the section. -/
def Pass.bytes (pass : Pass) : List UInt8 := pass.blocks.reverse.flatMap (·.bytes)

theorem bytes_startAt (ranges : List (Nat × Nat)) (address : Nat) (pass : Pass) :
    (pass.startAt ranges address).bytes = pass.bytes := by
  simp [Pass.bytes, Pass.startAt]

theorem bytes_emit (ranges : List (Nat × Nat)) (address : Nat) (bytes : List UInt8) (pass : Pass) :
    (pass.emit ranges address bytes).bytes = pass.bytes ++ bytes := by
  unfold Pass.bytes Pass.emit
  split
  · rename_i empty
    simp [empty]
  · rename_i block earlier latest
    split <;> simp [latest]

theorem Shows.cons {blocks : List Block} {placement : Placement} (shows_ : Shows blocks placement)
    (block : Block) : Shows (block :: blocks) placement := by
  obtain ⟨shown, member, rest⟩ := shows_
  exact ⟨shown, List.mem_cons_of_mem _ member, rest⟩

theorem shows_startAt (ranges : List (Nat × Nat)) (address : Nat) {placement : Placement}
    (shows_ : Shows pass.blocks placement) :
    Shows (pass.startAt ranges address).blocks placement :=
  shows_.cons _

/-- A block only grows at its end, so what it shows stays. -/
theorem shows_emit (ranges : List (Nat × Nat)) (address : Nat) (bytes : List UInt8)
    {placement : Placement} (shows_ : Shows pass.blocks placement) :
    Shows (pass.emit ranges address bytes).blocks placement := by
  unfold Pass.emit
  split
  · rename_i empty
    obtain ⟨block, member, _⟩ := empty ▸ shows_
    contradiction
  · rename_i latest earlier blocks
    rw [blocks] at shows_
    dsimp only
    split
    · exact shows_.cons _
    · obtain ⟨block, member, front, back, whole, placed⟩ := shows_
      rcases List.mem_cons.mp member with rfl | inEarlier
      · refine ⟨_, List.mem_cons_self, front, back ++ bytes, ?_, placed⟩
        rw [whole, List.append_assoc]
      · exact ⟨block, List.mem_cons_of_mem _ inEarlier, front, back, whole, placed⟩

/-- What was just emitted is shown. -/
theorem shows_emitted (ranges : List (Nat × Nat)) (address : Nat) (bytes : List UInt8)
    (pass : Pass) (label : Option Text) :
    Shows (pass.emit ranges address bytes).blocks ⟨label, address, bytes⟩ := by
  have alone : Shows (⟨address, bytes, insideAllocation ranges address⟩ :: pass.blocks)
      ⟨label, address, bytes⟩ := by
    refine ⟨_, List.mem_cons_self, [], [], ?_, rfl⟩
    simp
  unfold Pass.emit
  split
  · rename_i empty
    rwa [empty] at alone
  · rename_i latest earlier blocks
    dsimp only
    split
    · rwa [blocks] at alone
    · rename_i ends
      rw [not_not] at ends
      refine ⟨_, List.mem_cons_self, latest.bytes, [], ?_, ?_⟩
      · simp
      · rw [ends]
        exact (Nat.mod_eq_of_lt (ends ▸ Nat.mod_lt _ (by decide))).symm

/-- The names with a value keep it through a pass. -/
def Keeps (s : Section) (next : SymbolMap) : Prop :=
  ∀ name address, find caseLess name s.symbols = some address →
    find caseLess name next = some address

theorem Keeps.assign {next : SymbolMap} (keeps : Keeps s next) {label : Text} (address : Nat)
    (unknown : find caseLess label s.symbols = none) :
    Keeps s (OrderedMap.assign caseLess label address next) := by
  intro name value known
  rw [find_assign]
  split
  · rename_i same
    rw [find_congr same, known] at unknown
    contradiction
  · exact keeps name value known

/-- What the lines from one state of a pass to another have placed. -/
structure Traced (pass after : Pass) (placements : List Placement) : Prop where
  bytes : after.bytes = pass.bytes ++ placements.flatMap (·.bytes)
  shown : ∀ placement ∈ placements, placement.bytes ≠ [] → Shows after.blocks placement
  kept : ∀ placement, Shows pass.blocks placement → Shows after.blocks placement
  unnamed : ∀ name, (∀ placement ∈ placements, ∀ label, placement.label = some label →
    lower label ≠ lower name) → find caseLess name after.next = find caseLess name pass.next
  named : ∀ placement ∈ placements, ∀ name, placement.label = some name →
    ∃ last ∈ placements, ∃ label, last.label = some label ∧ lower label = lower name ∧
      find caseLess name after.next = some last.address

theorem Traced.nil (pass : Pass) : Traced pass pass [] :=
  ⟨(List.append_nil _).symm, nofun, fun _ shows_ => shows_, fun _ _ => rfl, nofun⟩

/-- The placement of one line before those of the lines after it. -/
theorem Traced.cons {middle : Pass} {placement : Placement} {placements : List Placement}
    (traced : Traced middle after placements)
    (bytes : middle.bytes = pass.bytes ++ placement.bytes)
    (shown : placement.bytes ≠ [] → Shows middle.blocks placement)
    (kept : ∀ other, Shows pass.blocks other → Shows middle.blocks other)
    (unnamed : ∀ name, (∀ label, placement.label = some label → lower label ≠ lower name) →
      find caseLess name middle.next = find caseLess name pass.next)
    (named : ∀ name, placement.label = some name →
      find caseLess name middle.next = some placement.address) :
    Traced pass after (placement :: placements) := by
  constructor
  · rw [traced.bytes, bytes, List.flatMap_cons, List.append_assoc]
  · intro other member nonempty
    rcases List.mem_cons.mp member with rfl | later
    · exact traced.kept _ (shown nonempty)
    · exact traced.shown other later nonempty
  · exact fun other shows_ => traced.kept other (kept other shows_)
  · intro name none
    rw [traced.unnamed name fun other later => none other (List.mem_cons_of_mem _ later)]
    exact unnamed name (none placement List.mem_cons_self)
  · intro first member name defines
    by_cases again : ∃ other ∈ placements, ∃ label, other.label = some label ∧
        lower label = lower name
    · obtain ⟨other, later, label, isLabel, same⟩ := again
      obtain ⟨last, inRest, spelling, isLast, alike, found⟩ := traced.named other later label isLabel
      refine ⟨last, List.mem_cons_of_mem _ inRest, spelling, isLast, alike.trans same, ?_⟩
      have one : caseLess.fold label = caseLess.fold name := same
      rw [← find_congr one, found]
    · have never : ∀ other ∈ placements, ∀ label, other.label = some label →
          lower label ≠ lower name :=
        fun other later label isLabel same => again ⟨other, later, label, isLabel, same⟩
      rcases List.mem_cons.mp member with rfl | later
      · refine ⟨first, List.mem_cons_self, name, defines, rfl, ?_⟩
        rw [traced.unnamed name never, named name defines]
      · exact absurd rfl (never first later name defines)

/-- What a layout pass does is to place its lines. -/
theorem layoutLines_traced {addresses : Addresses} {lines : List Line}
    (replaces : ∀ text, substituteText text substitutions =
      replaceNames (fun name => (addresses name).map toHex) text)
    (keeps : Keeps s pass.next) (laid : layoutLines s substitutions lines pass = .ok after) :
    ∃ placements, place s addresses pass.writeAddress lines = some placements ∧
      Traced pass after placements := by
  induction lines generalizing pass with
  | nil =>
      cases laid
      exact ⟨[], rfl, .nil _⟩
  | cons line rest ih =>
      rw [layoutLines] at laid
      split at laid
      · contradiction
      · rename_i middle stepped
        cases layoutLine_ok stepped with
        | directive reads =>
            obtain ⟨placements, placed, traced⟩ := ih keeps laid
            refine ⟨placements, ?_, traced⟩
            simp only [place, reads, ↓reduceIte, placed]
        | anchor label address plain reads known =>
            obtain ⟨placements, placed, traced⟩ :=
              @ih (pass.startAt s.allocatedRanges address) keeps laid
            refine ⟨⟨some label, address, []⟩ :: placements, ?_, traced.cons ?_ ?_ ?_ ?_ ?_⟩
            · change place s addresses (some address) rest = some placements at placed
              simp only [place, plain, reads, known, placed, Bool.false_eq_true, ↓reduceIte,
                Option.some_or, Option.map_some]
            · rw [bytes_startAt, List.append_nil]
            · exact fun nonempty => absurd rfl nonempty
            · exact fun other => shows_startAt s.allocatedRanges address
            · exact fun name _ => rfl
            · intro name isName
              cases isName
              exact keeps _ address known
        | label label address plain reads unknown here =>
            obtain ⟨placements, placed, traced⟩ := ih (keeps.assign address unknown) laid
            refine ⟨⟨some label, address, []⟩ :: placements, ?_, traced.cons ?_ ?_ ?_ ?_ ?_⟩
            · rw [here] at placed ⊢
              simp only [place, plain, reads, unknown, placed, Bool.false_eq_true, ↓reduceIte,
                Option.none_or, Option.map_some]
            · exact (List.append_nil _).symm
            · exact fun nonempty => absurd rfl nonempty
            · exact fun other shows_ => shows_
            · intro name other
              rw [find_assign]
              exact if_neg (other label rfl)
            · intro name isName
              cases isName
              exact find_assign_self _ _ _
        | origin origin address plain unlabelled reads resolves =>
            obtain ⟨placements, placed, traced⟩ :=
              @ih (pass.startAt s.allocatedRanges address) keeps laid
            refine ⟨⟨none, address, []⟩ :: placements, ?_, traced.cons ?_ ?_ ?_ ?_ ?_⟩
            · change place s addresses (some address) rest = some placements at placed
              simp only [place, plain, unlabelled, reads, resolves, placed, Bool.false_eq_true,
                ↓reduceIte, Option.map_some]
            · rw [bytes_startAt, List.append_nil]
            · exact fun nonempty => absurd rfl nonempty
            · exact fun other => shows_startAt s.allocatedRanges address
            · exact fun name _ => rfl
            · exact fun name isName => nomatch isName
        | code address bytes plain unlabelled unplaced here assembles =>
            obtain ⟨placements, placed, traced⟩ :=
              @ih (pass.emit s.allocatedRanges address bytes) keeps laid
            refine ⟨⟨none, address, bytes⟩ :: placements, ?_, traced.cons ?_ ?_ ?_ ?_ ?_⟩
            · change place s addresses (some ((address + bytes.length) % addressSpace)) rest =
                some placements at placed
              rw [replaces] at assembles
              simp only [place, plain, unlabelled, unplaced, here, assembles, placed,
                Bool.false_eq_true, ↓reduceIte, Option.map_some]
            · exact bytes_emit s.allocatedRanges address bytes pass
            · exact fun _ => shows_emitted s.allocatedRanges address bytes pass none
            · exact fun other => shows_emit s.allocatedRanges address bytes
            · exact fun name _ => rfl
            · exact fun name isName => nomatch isName

/-- A layout that settles already gave every name of the pass its address, and still does. -/
theorem settle_true {next layout final : SymbolMap} (settled : settle next layout = (true, final)) :
    (∀ entry ∈ next, find caseLess entry.1 layout = some entry.2) ∧
      ∀ name, find caseLess name final = find caseLess name layout := by
  induction next generalizing layout with
  | nil =>
      cases settled
      exact ⟨nofun, fun _ => rfl⟩
  | cons entry rest ih =>
      obtain ⟨both, last⟩ := Prod.mk.inj settled
      rw [Bool.and_eq_true, beq_iff_eq] at both
      obtain ⟨here, later⟩ := both
      obtain ⟨agree, same⟩ := ih (Prod.ext later last)
      have kept (name : Text) : find caseLess name (assign caseLess entry.1 entry.2 layout) =
          find caseLess name layout := by
        rw [find_assign]
        split
        · rename_i alike
          rw [← find_congr alike, here]
        · rfl
      constructor
      · intro other member
        rcases List.mem_cons.mp member with rfl | inRest
        · exact here
        · rw [← kept, agree other inRest]
      · intro name
        rw [same, kept]

/-- An accepted layout is that of a pass that moved nothing. -/
theorem layoutPasses_settled {lines : List Line} {passes : Nat} {layout final : SymbolMap}
    {blocks : List Block}
    (accepted : layoutPasses s lines passes layout = .ok (some (blocks, final))) :
    ∃ used pass, layoutPass s lines used = .ok pass ∧ blocks = pass.blocks.reverse ∧
      (∀ name address, find caseLess name pass.next = some address →
        find caseLess name final = some address) ∧
      ∀ name, find caseLess name final = find caseLess name used := by
  induction passes generalizing layout with
  | zero => cases accepted
  | succ passes ih =>
      rw [layoutPasses] at accepted
      split at accepted
      · contradiction
      · rename_i pass laid
        split at accepted
        · rename_i settledLayout settled
          cases accepted
          obtain ⟨agree, same⟩ := settle_true settled
          refine ⟨layout, pass, laid, rfl, ?_, same⟩
          intro name address found
          obtain ⟨entry, member, alike, rfl⟩ := exists_of_find found
          rw [same, ← find_congr alike, agree entry member]
        · exact ih accepted

theorem emitted_of_traced {start : Pass} {placements : List Placement}
    (traced : Traced start after placements) (bare : start.blocks = []) :
    Emitted (after.blocks.reverse.filter (!·.bytes.isEmpty)) placements := by
  constructor
  · have bytes := traced.bytes
    simp only [Pass.bytes, bare, List.reverse_nil, List.flatMap_nil, List.nil_append] at bytes
    rw [← bytes]
    generalize after.blocks.reverse = blocks
    induction blocks with
    | nil => rfl
    | cons block rest ih =>
        rw [List.filter_cons, List.flatMap_cons, ← ih]
        cases empty : block.bytes.isEmpty with
        | true => simp [List.isEmpty_iff.mp empty]
        | false => simp
  · intro placement member nonempty
    obtain ⟨block, shown, front, back, whole, placed⟩ := traced.shown placement member nonempty
    refine ⟨block, ?_, front, back, whole, placed⟩
    rw [List.mem_filter, List.mem_reverse]
    refine ⟨shown, ?_⟩
    simp [whole, nonempty]

/-- Where the lines of a compiled section stand, under the layout that was accepted: a name
has the place of one of the lines that define it. -/
theorem compile_placed {env : Env} {execute enableSection : Bool} {source : Text}
    {stored : SymbolMap} {world after : World} {compiled : Compiled}
    (compiles : compile env execute source enableSection stored world = (after, .ok compiled)) :
    ∃ known placements,
      readLines env execute (sectionLines source enableSection)
        { world, symbols := assignAll caseLess stored [] } = (after, .ok known) ∧
      place (known.section env) (find caseLess · compiled.layout) none
        (sectionLines source enableSection) = some placements ∧
      Emitted compiled.result.blocks placements ∧
      ∀ placement ∈ placements, ∀ name, placement.label = some name →
        ∃ last ∈ placements, ∃ label, last.label = some label ∧ lower label = lower name ∧
          find caseLess name compiled.layout = some last.address := by
  rcases compile_ok compiles with ⟨empty, rfl, rfl⟩ | ⟨known, reads, laidOut⟩
  · rw [empty]
    exact ⟨_, [], rfl, rfl, ⟨rfl, nofun⟩, nofun⟩
  · obtain ⟨blocks, values, accepted, _, result⟩ := layOut_ok laidOut
    obtain ⟨used, pass, laid, rfl, final, same⟩ := layoutPasses_settled accepted
    have replaces (text : Text) : substituteText text (asSubstitutions used) =
        replaceNames (fun name => (find caseLess name compiled.layout).map toHex) text := by
      rw [substituteText_symbols]
      simp only [same]
    obtain ⟨placements, placed, traced⟩ :=
      @layoutLines_traced (known.section env) _ { next := known.symbols } pass
        (find caseLess · compiled.layout) _ replaces (fun _ _ found => found) laid
    refine ⟨known, placements, reads, placed, ?_, ?_⟩
    · rw [result]
      exact emitted_of_traced traced rfl
    · intro placement member name defines
      obtain ⟨last, inPlacements, label, isLabel, alike, found⟩ :=
        traced.named placement member name defines
      exact ⟨last, inPlacements, label, isLabel, alike, final name _ found⟩

end PointerLab.AutoAssembler
