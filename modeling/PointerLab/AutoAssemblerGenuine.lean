import PointerLab.AutoAssemblerPlacement

set_option autoImplicit false

/- When the layout `compile` accepts is a genuine one: every name stands for the place its
label is written, and every instruction was assembled with these places. -/
namespace PointerLab.AutoAssembler

open Domain OrderedMap SymbolTable

variable {s : Section} {addresses : Addresses} {lines : List Line} {placements : List Placement}

/-- The names without a value that the lines of a section define, in order. -/
def freeLabels (s : Section) (lines : List Line) : List Text :=
  (lines.filterMap fun line =>
    let expanded := substituteText line.text s.defines
    if (parseDirective expanded).isSome then none else parseLabelDefinition expanded).filter
      fun label => (find caseLess label s.symbols).isNone

/-- One name, one line. -/
def Once (labels : List Text) : Prop := labels.Pairwise fun first second => lower first ≠ lower second

theorem freeLabels_cons_skip {line : Line} {rest : List Line}
    (reads : (parseDirective (substituteText line.text s.defines)).isSome = true ∨
      parseLabelDefinition (substituteText line.text s.defines) = none) :
    freeLabels s (line :: rest) = freeLabels s rest := by
  rcases reads with reads | reads <;> simp [freeLabels, reads]

theorem freeLabels_cons {line : Line} {rest : List Line} {label : Text}
    (plain : (parseDirective (substituteText line.text s.defines)).isSome = false)
    (reads : parseLabelDefinition (substituteText line.text s.defines) = some label) :
    freeLabels s (line :: rest) =
      if (find caseLess label s.symbols).isNone then label :: freeLabels s rest
      else freeLabels s rest := by
  simp [freeLabels, plain, reads, List.filter_cons]

/-- A name with a value is an origin at it; the others are the free labels, in order. -/
theorem place_labels {here : Option Nat}
    (placed : place s addresses here lines = some placements) :
    (∀ placement ∈ placements, ∀ name address, placement.label = some name →
      find caseLess name s.symbols = some address → placement.address = address) ∧
    (placements.filterMap (·.label)).filter (fun label => (find caseLess label s.symbols).isNone) =
      freeLabels s lines := by
  induction lines generalizing here placements with
  | nil =>
      cases placed
      exact ⟨nofun, rfl⟩
  | cons line rest ih =>
      have unlabelled {address : Nat} {bytes : List UInt8} {next : Option Nat}
          (quiet : parseLabelDefinition (substituteText line.text s.defines) = none)
          (step : (place s addresses next rest).map (⟨none, address, bytes⟩ :: ·) = some placements) :
          (∀ placement ∈ placements, ∀ name address, placement.label = some name →
            find caseLess name s.symbols = some address → placement.address = address) ∧
          (placements.filterMap (·.label)).filter
            (fun label => (find caseLess label s.symbols).isNone) = freeLabels s (line :: rest) := by
        obtain ⟨later, placedLater, rfl⟩ := Option.map_eq_some_iff.mp step
        obtain ⟨anchored, free⟩ := ih placedLater
        constructor
        · intro placement member name address isName
          rcases List.mem_cons.mp member with rfl | inLater
          · cases isName
          · exact anchored placement inLater name address isName
        · rw [freeLabels_cons_skip (Or.inr quiet), ← free]
          rfl
      simp only [place] at placed
      split at placed
      · rename_i reads
        rw [freeLabels_cons_skip (Or.inl reads)]
        exact ih placed
      · rename_i plain
        rw [Bool.not_eq_true] at plain
        split at placed
        · rename_i label reads
          split at placed
          · contradiction
          · rename_i address stands
            obtain ⟨later, placedLater, rfl⟩ := Option.map_eq_some_iff.mp placed
            obtain ⟨anchored, free⟩ := ih placedLater
            constructor
            · intro placement member name value isName known
              rcases List.mem_cons.mp member with rfl | inLater
              · cases isName
                rw [known, Option.some_or] at stands
                exact (Option.some.inj stands).symm
              · exact anchored placement inLater name value isName known
            · rw [freeLabels_cons plain reads, ← free]
              exact List.filter_cons
        · rename_i quiet
          split at placed
          · split at placed
            · contradiction
            · exact unlabelled quiet placed
          · split at placed
            · contradiction
            · split at placed
              · contradiction
              · exact unlabelled quiet placed

/-- Where no free name is defined on two lines, every name has one place. -/
theorem agree_of_once {here : Option Nat} (once : Once (freeLabels s lines))
    (placed : place s addresses here lines = some placements) : Agree placements := by
  obtain ⟨anchored, free⟩ := place_labels placed
  rw [Once, ← free, List.pairwise_filter, List.pairwise_filterMap] at once
  intro first inFirst second inSecond name other isName isOther alike
  have one : caseLess.fold name = caseLess.fold other := alike
  cases known : find caseLess name s.symbols with
  | some address =>
      rw [anchored first inFirst name address isName known,
        anchored second inSecond other address isOther (find_congr one ▸ known)]
  | none =>
      by_cases same : first = second
      · rw [same]
      · have symm : Std.Symm fun first second : Placement => ∀ name, first.label = some name →
            ∀ other, second.label = some other → (find caseLess name s.symbols).isNone = true →
              (find caseLess other s.symbols).isNone = true → lower name ≠ lower other :=
          ⟨fun _ _ differ name isName other isOther free alsoFree =>
            (differ other isOther name isName alsoFree free).symm⟩
        have known' : find caseLess other s.symbols = none := find_congr one ▸ known
        have differ := once.forall inFirst inSecond same name isName other isOther
          (by rw [known, Option.isNone_none]) (by rw [known', Option.isNone_none])
        exact absurd alike differ

/-- The layout `compile` accepts is genuine exactly when the lines that define one name
stand at one place. They do where no name without a value is defined on two lines. -/
theorem compile_genuine_iff {env : Env} {execute enableSection : Bool} {source : Text}
    {stored : SymbolMap} {world after : World} {compiled : Compiled}
    (compiles : compile env execute source enableSection stored world = (after, .ok compiled)) :
    ∃ known placements,
      readLines env execute (sectionLines source enableSection)
        { world, symbols := assignAll caseLess stored [] } = (after, .ok known) ∧
      place (known.section env) (find caseLess · compiled.layout) none
        (sectionLines source enableSection) = some placements ∧
      Emitted compiled.result.blocks placements ∧
      ((∃ addresses : Addresses, addresses.CaseBlind ∧ addresses.Defined placements ∧
        place (known.section env) addresses none (sectionLines source enableSection) =
          some placements) ↔ Agree placements) ∧
      (Once (freeLabels (known.section env) (sectionLines source enableSection)) →
        Agree placements) := by
  obtain ⟨known, placements, reads, placed, emitted, defined⟩ := compile_placed compiles
  refine ⟨known, placements, reads, placed, emitted, ⟨?_, ?_⟩, fun once => agree_of_once once placed⟩
  · rintro ⟨addresses, caseBlind, stand, _⟩
    intro first inFirst second inSecond name other isName isOther alike
    have here := stand first inFirst name isName
    have there := stand second inSecond other isOther
    rw [caseBlind name other alike, there] at here
    exact (Option.some.inj here).symm
  · intro agree
    refine ⟨(find caseLess · compiled.layout), fun _ _ same => ?_, ?_, placed⟩
    · have one : caseLess.fold _ = caseLess.fold _ := same
      exact find_congr one
    · intro placement member name isName
      obtain ⟨last, inPlacements, label, isLabel, alike, found⟩ :=
        defined placement member name isName
      dsimp only
      rw [found, agree last inPlacements placement member label name isLabel isName alike]

/-- What a compile of the bench comes to. -/
def benchBlocks (source : Text) : List Block :=
  match (compile bench true source true [] bareWorld).2 with
  | .ok compiled => compiled.result.blocks
  | .error _ => []

/-- The section the layout of the bench begins from. -/
def benchSection (source : Text) : Section :=
  match (readLines bench true (sectionLines source true) { world := bareWorld, symbols := [] }).2 with
  | .ok known => known.section bench
  | .error _ => ⟨bench, bareWorld, [], [], []⟩

theorem benchSection_eq {source : Text} {after : World} {known : Known}
    (reads : readLines bench true (sectionLines source true) { world := bareWorld, symbols := [] } =
      (after, .ok known)) : known.section bench = benchSection source := by
  rw [benchSection, reads]

def onceScript : Text := "alloc(m, 100)\nm:\na:\ndb 1\nb:\ndb 2".toList

theorem onceScript_genuine :
    ∃ compiled placements, (compile bench true onceScript true [] bareWorld).2 = .ok compiled ∧
      compiled.result.blocks = [⟨0x10000, [1, 2], true⟩] ∧
      Emitted compiled.result.blocks placements ∧ Agree placements := by
  have blocks : benchBlocks onceScript = [⟨0x10000, [1, 2], true⟩] := by decide
  have once : freeLabels (benchSection onceScript) (sectionLines onceScript true) =
      ["a".toList, "b".toList] := by decide
  rcases compiles : compile bench true onceScript true [] bareWorld with ⟨after, message | compiled⟩
  · rw [benchBlocks, compiles] at blocks
    contradiction
  · rw [benchBlocks, compiles] at blocks
    obtain ⟨known, placements, reads, _, emitted, _, agrees⟩ := compile_genuine_iff compiles
    rw [benchSection_eq reads, once] at agrees
    exact ⟨compiled, placements, rfl, blocks, emitted, agrees (by unfold Once; decide)⟩

/-- A label on two lines, with a byte between them. -/
def twiceScript : Text := "alloc(m, 100)\nm:\na:\ndb 1\na:\ndb 2".toList

/-- The script compiles, and no addresses put both lines of the label where it is. -/
theorem twiceScript_torn :
    benchBlocks twiceScript = [⟨0x10000, [1, 2], true⟩] ∧
      ¬∃ (addresses : Addresses) (placements : List Placement),
        place (benchSection twiceScript) addresses none (sectionLines twiceScript true) =
          some placements ∧ addresses.Defined placements := by
  refine ⟨by decide, ?_⟩
  rintro ⟨addresses, placements, placed, stands⟩
  have where_ : place (benchSection twiceScript) addresses none (sectionLines twiceScript true) =
      some [⟨some "m".toList, 0x10000, []⟩, ⟨some "a".toList, 0x10000, []⟩, ⟨none, 0x10000, [1]⟩,
        ⟨some "a".toList, 0x10001, []⟩, ⟨none, 0x10001, [2]⟩] := rfl
  rw [where_] at placed
  obtain rfl := Option.some.inj placed
  have first := stands ⟨some "a".toList, 0x10000, []⟩ (by simp) _ rfl
  have second := stands ⟨some "a".toList, 0x10001, []⟩ (by simp) _ rfl
  rw [first] at second
  exact absurd (Option.some.inj second) (by decide)

end PointerLab.AutoAssembler
