import PointerLab.ProjectStoreRoundTrip
import PointerLab.UiProjectLoads

set_option autoImplicit false

/- Symbols saved with a project and defined again when it is loaded: one by one, in the order
of their names, each in the table of those before it. -/
namespace PointerLab

open Domain ProjectStore SymbolTable

namespace SymbolTable

instance : Std.Total fun left right : Symbol => lower left.name ≤ lower right.name :=
  ⟨fun _ _ => le_total _ _⟩

instance : IsTrans Symbol fun left right => lower left.name ≤ lower right.name :=
  ⟨fun _ _ _ => le_trans⟩

/-- `symbols()` never has two names in one place. -/
theorem symbols_sorted {table : List Symbol} (sound : Sound table) :
    (symbols table).Pairwise fun left right => lower left.name < lower right.name := by
  have ordered := List.pairwise_insertionSort
    (fun left right : Symbol => lower left.name ≤ lower right.name) table
  have sameNames : ((symbols table).map fun symbol => lower symbol.name).Perm
      (table.map fun symbol => lower symbol.name) :=
    (List.perm_insertionSort _ table).map _
  have apart := List.pairwise_map.mp (sameNames.nodup_iff.mpr sound.distinct)
  exact (ordered.and apart).imp fun both => Std.lt_of_le_of_ne both.1 both.2

theorem mem_symbols {table : List Symbol} {symbol : Symbol} :
    symbol ∈ symbols table ↔ symbol ∈ table :=
  (List.perm_insertionSort _ table).mem_iff

/-- The name an expression begins with, as a symbol of the table. -/
def headSymbol (table : List Symbol) (expression : Text) : Option Symbol :=
  (split expression).bind fun parts => find parts.1 table

/-- A symbol that comes back: its expression gives its address, and begins with no symbol, or
with one that is defined before it and comes back. -/
inductive Returns (resolver : Resolver) (view : TargetView) (table : List Symbol) : Symbol → Prop
  | intro (symbol : Symbol) (inside : symbol ∈ table) (expressed : symbol.expression ≠ [])
      (resolves : resolve resolver view table symbol.expression = .ok symbol.address)
      (earlier : ∀ other, headSymbol table symbol.expression = some other →
        lower other.name < lower symbol.name)
      (returns : ∀ other, headSymbol table symbol.expression = some other →
        Returns resolver view table other) : Returns resolver view table symbol

/-- The tables agree on the symbol an expression begins with, and so on the expression. -/
theorem resolve_of_head {resolver : Resolver} {view : TargetView} {first second : List Symbol}
    {expression : Text} (same : headSymbol first expression = headSymbol second expression) :
    resolve resolver view first expression = resolve resolver view second expression := by
  unfold resolve
  unfold headSymbol find at same
  cases cut : split expression with
  | none => rfl
  | some parts =>
      rw [cut, Option.bind_some, Option.bind_some] at same
      dsimp only
      unfold resolveTerm
      rw [same]

/-- A name that is not in use is added at the end. -/
theorem setExpression_new {name : Text} {table : List Symbol}
    (unused : ∀ symbol ∈ table, lower symbol.name ≠ lower name) (address : Nat)
    (expression : Text) :
    setExpression name address expression table = table ++ [⟨name, address, expression⟩] := by
  induction table with
  | nil => rfl
  | cons symbol rest ih =>
      rw [setExpression, if_neg, ih, List.cons_append]
      · exact fun other inRest => unused other (List.mem_cons_of_mem _ inRest)
      · exact fun same => unused symbol List.mem_cons_self (sameName_iff.mp same)

/-- A table that holds what returns of the symbols defined so far, and no other names. -/
structure Rebuilt (resolver : Resolver) (view : TargetView) (table done rebuilt : List Symbol) :
    Prop where
  sound : Sound rebuilt
  known : ∀ symbol ∈ rebuilt, ∃ old ∈ done, lower old.name = lower symbol.name
  back : ∀ symbol ∈ done, Returns resolver view table symbol → symbol ∈ rebuilt

section Rebuilt

variable {resolver : Resolver} {view : TargetView} {table done rebuilt : List Symbol}
  {symbol : Symbol}

/-- The symbol an expression begins with is there already, wherever the symbol itself returns:
what it begins with is saved before it. -/
theorem Rebuilt.head (so : Rebuilt resolver view table done rebuilt)
    (inTable : ∀ symbol ∈ done, symbol ∈ table)
    (before_ : ∀ other ∈ table, other.expression ≠ [] → lower other.name < lower symbol.name →
      other ∈ done)
    (earlier : ∀ other, headSymbol table symbol.expression = some other →
      lower other.name < lower symbol.name)
    (returns : ∀ other, headSymbol table symbol.expression = some other →
      Returns resolver view table other) :
    headSymbol rebuilt symbol.expression = headSymbol table symbol.expression := by
  cases head : headSymbol table symbol.expression with
  | some other =>
      have otherReturns := returns other head
      have otherIn : other ∈ done := by
        cases otherReturns with
        | intro _ inOther expressedOther _ _ _ =>
            exact before_ other inOther expressedOther (earlier other head)
      have there := so.back other otherIn otherReturns
      unfold headSymbol at head ⊢
      obtain ⟨parts, cut, found⟩ := Option.bind_eq_some_iff.mp head
      rw [cut, Option.bind_some]
      exact so.sound.find there (find_name found)
  | none =>
      unfold headSymbol at head ⊢
      cases cut : split symbol.expression with
      | none => rfl
      | some parts =>
          rw [cut, Option.bind_some] at head
          rw [Option.bind_some]
          refine List.find?_eq_none.mpr fun other inRebuilt same => ?_
          obtain ⟨old, inDone, sameOld⟩ := so.known other inRebuilt
          refine List.find?_eq_none.mp head old (inTable old inDone) ?_
          exact sameName_iff.mpr (sameOld.trans (sameName_iff.mp same))

/-- An expression that is refused adds nothing, and so the symbol was none that returns. -/
theorem Rebuilt.refused (so : Rebuilt resolver view table done rebuilt)
    (lost : ¬ Returns resolver view table symbol) :
    Rebuilt resolver view table (done ++ [symbol]) rebuilt := by
  constructor
  · exact so.sound
  · intro other inRebuilt
    obtain ⟨old, inDone, sameOld⟩ := so.known other inRebuilt
    exact ⟨old, List.mem_append_left _ inDone, sameOld⟩
  · intro other inDone returns
    cases List.mem_append.mp inDone with
    | inl old => exact so.back other old returns
    | inr new =>
        rw [List.mem_singleton.mp new] at returns
        exact absurd returns lost

/-- An expression that is accepted adds its symbol at the end. -/
theorem Rebuilt.accepted (so : Rebuilt resolver view table done rebuilt)
    (unused : ∀ old ∈ done, lower old.name ≠ lower symbol.name) (named : Named symbol.name)
    {address : Nat} (right : Returns resolver view table symbol → address = symbol.address) :
    Rebuilt resolver view table (done ++ [symbol])
      (setExpression symbol.name address symbol.expression rebuilt) := by
  have fresh : ∀ other ∈ rebuilt, lower other.name ≠ lower symbol.name := by
    intro other inRebuilt same
    obtain ⟨old, inDone, sameOld⟩ := so.known other inRebuilt
    exact unused old inDone (sameOld.trans same)
  have sound := setExpression_sound named address symbol.expression so.sound
  rw [setExpression_new fresh] at sound ⊢
  constructor
  · exact sound
  · intro other inRebuilt
    cases List.mem_append.mp inRebuilt with
    | inl old =>
        obtain ⟨older, inDone, sameOld⟩ := so.known other old
        exact ⟨older, List.mem_append_left _ inDone, sameOld⟩
    | inr new =>
        rw [List.mem_singleton.mp new]
        exact ⟨symbol, List.mem_append_right _ List.mem_cons_self, rfl⟩
  · intro other inDone returns
    cases List.mem_append.mp inDone with
    | inl old => exact List.mem_append_left _ (so.back other old returns)
    | inr new =>
        rw [List.mem_singleton.mp new] at returns ⊢
        rw [right returns]
        exact List.mem_append_right _ List.mem_cons_self

/-- One symbol more. -/
theorem Rebuilt.next (so : Rebuilt resolver view table done rebuilt) (sound : Sound table)
    (inTable : ∀ symbol ∈ done, symbol ∈ table) (inside : symbol ∈ table)
    (unused : ∀ old ∈ done, lower old.name ≠ lower symbol.name)
    (before_ : ∀ other ∈ table, other.expression ≠ [] → lower other.name < lower symbol.name →
      other ∈ done) :
    Rebuilt resolver view table (done ++ [symbol])
      (defineExpression resolver view symbol.name symbol.expression rebuilt).1 := by
  have named := sound.named symbol inside
  have agrees (returns : Returns resolver view table symbol) :
      resolve resolver view rebuilt symbol.expression = .ok symbol.address := by
    cases returns with
    | intro _ _ expressed resolves earlier returns =>
        rw [← resolves]
        exact resolve_of_head (so.head inTable before_ earlier returns)
  have defined := defineExpression_cases resolver view symbol.name symbol.expression rebuilt
  rw [named.flush] at defined
  cases defined with
  | inl refused =>
      obtain ⟨failure, same⟩ := refused
      rw [same]
      apply so.refused
      intro returns
      simp [defineExpression, agrees returns, named.flush, named.nonempty, named.number,
        named.unsigned] at same
  | inr accepted =>
      obtain ⟨address, resolved, good, set⟩ := accepted
      rw [set]
      exact so.accepted unused good fun returns =>
        Except.ok.inj (resolved.symm.trans (agrees returns))

end Rebuilt

end SymbolTable

namespace App

open AutoAssembler (Env)

/-- The symbols a project is saved with, in order. -/
def worthSaving (table : List Symbol) : List Symbol :=
  (symbols table).filter fun symbol => !symbol.expression.isEmpty

/-- Defining a list in order rebuilds what returns of it. -/
theorem defineSymbols_rebuilt {resolver : Resolver} {view : TargetView} {table : List Symbol}
    (sound : Sound table) (done rest rebuilt : List Symbol) (whole : done ++ rest = worthSaving table)
    (so : Rebuilt resolver view table done rebuilt) :
    Rebuilt resolver view table (worthSaving table)
      (defineSymbols resolver view (rest.map fun symbol =>
        { name := symbol.name, expression := symbol.expression }) rebuilt) := by
  have sorted : (worthSaving table).Pairwise fun left right => lower left.name < lower right.name :=
    (symbols_sorted sound).filter _
  have listed (symbol : Symbol) (inside : symbol ∈ worthSaving table) : symbol ∈ table :=
    mem_symbols.mp (List.mem_of_mem_filter inside)
  induction rest generalizing done rebuilt with
  | nil =>
      rw [List.append_nil] at whole
      rw [whole] at so
      exact so
  | cons symbol rest ih =>
      have apart := sorted
      rw [← whole, List.pairwise_append, List.pairwise_cons] at apart
      obtain ⟨_, ⟨later, _⟩, before_⟩ := apart
      have inKept : symbol ∈ worthSaving table :=
        whole ▸ List.mem_append_right _ List.mem_cons_self
      apply ih (done ++ [symbol])
      · rw [List.append_assoc, List.singleton_append, whole]
      · apply so.next sound
        · exact fun old inDone => listed old (whole ▸ List.mem_append_left _ inDone)
        · exact listed symbol inKept
        · intro old inDone same
          have smaller := before_ old inDone symbol List.mem_cons_self
          rw [same] at smaller
          exact List.lt_irrefl _ smaller
        · intro other inTable expressed smaller
          have inSaved : other ∈ worthSaving table :=
            List.mem_filter.mpr ⟨mem_symbols.mpr inTable, by simpa using expressed⟩
          rw [← whole] at inSaved
          cases List.mem_append.mp inSaved with
          | inl inDone => exact inDone
          | inr inRest =>
              cases List.mem_cons.mp inRest with
              | inl same =>
                  rw [same] at smaller
                  exact absurd smaller (List.lt_irrefl _)
              | inr inLater => exact absurd smaller (List.lt_asymm (later other inLater))

/-- The table a save and a load leave, before any script is switched off. -/
theorem defineSymbols_savedSymbols (resolver : Resolver) (view : TargetView) {table : List Symbol}
    (sound : Sound table) {symbol : Symbol} (returns : Returns resolver view table symbol) :
    symbol ∈ defineSymbols resolver view (savedSymbols table) [] ∧
      Sound (defineSymbols resolver view (savedSymbols table) []) := by
  have start : Rebuilt resolver view table [] [] :=
    ⟨empty_sound, fun _ inside => (nomatch inside), fun _ inside => nomatch inside⟩
  have all := defineSymbols_rebuilt sound [] (worthSaving table) [] (List.nil_append _) start
  refine ⟨all.back symbol ?_ returns, all.sound⟩
  cases returns with
  | intro _ inside expressed _ _ _ =>
      exact List.mem_filter.mpr ⟨mem_symbols.mpr inside, by simpa using expressed⟩

section Written

variable (api : Conversion)

/-- A record of another kind leaves the symbols. -/
theorem readRecord_other (table : ProjectTable) {kind : Text} {rest : List Text}
    (other : kind ≠ "symbol".toList) :
    (readRecord api table (kind :: rest)).symbols = table.symbols := by
  have notSymbol : (kind == "symbol".toList) = false := by simpa using other
  simp only [readRecord, List.getD_cons_zero, notSymbol, Bool.false_and, Bool.false_eq_true,
    if_false]
  split
  · unfold readPid
    split <;> rfl
  split
  · rfl
  split
  · unfold readBitness
    split
    · rfl
    · split <;> rfl
  split
  · unfold readScript
    split <;> rfl
  split
  · rfl
  split
  · unfold readField
    split
    · rfl
    · split
      · exact (apply_ite ProjectTable.symbols _ _ _).trans (ite_self _)
      · rfl
  split
  · unfold readEntry
    split <;> rfl
  · rfl

theorem foldl_other (table : ProjectTable) {records : List (List Text)}
    (others : ∀ fields ∈ records, ∃ kind rest, fields = kind :: rest ∧ kind ≠ "symbol".toList) :
    (records.foldl (readRecord api) table).symbols = table.symbols := by
  induction records generalizing table with
  | nil => rfl
  | cons fields later ih =>
      obtain ⟨kind, rest, rfl, other⟩ := others fields List.mem_cons_self
      rw [List.foldl_cons, ih _ fun fields inLater => others fields (List.mem_cons_of_mem _ inLater),
        readRecord_other api table other]

/-- The symbols of a file that was written are those of the table. -/
theorem written_symbols {table : ProjectTable}
    (storable : ∀ symbol ∈ table.symbols, symbol.name ≠ [] ∧ symbol.expression ≠ []) :
    ((tableFields api table).foldl (readRecord api) {}).symbols = table.symbols := by
  rw [tableFields, List.foldl_append, List.foldl_append, List.foldl_append, List.foldl_append,
    foldl_other, foldl_other, foldl_other, foldl_symbols api storable, foldl_other]
  · rfl
  · intro fields inside
    simp only [List.mem_cons, List.not_mem_nil, or_false] at inside
    rcases inside with rfl | rfl | rfl <;> exact ⟨_, _, rfl, by decide⟩
  · intro fields inside
    obtain ⟨script, _, rfl⟩ := List.mem_map.mp inside
    exact ⟨_, _, rfl, by decide⟩
  · intro fields inside
    obtain ⟨structure_, _, inStructure⟩ := List.mem_flatMap.mp inside
    cases List.mem_cons.mp inStructure with
    | inl same => exact ⟨_, _, same, by decide⟩
    | inr field =>
        obtain ⟨field, _, rfl⟩ := List.mem_map.mp field
        exact ⟨_, _, rfl, by decide⟩
  · intro fields inside
    obtain ⟨entry, _, rfl⟩ := List.mem_map.mp inside
    exact ⟨_, _, rfl, by decide⟩

end Written

theorem savedSymbols_storable {table : List Symbol} (sound : Sound table) :
    ∀ symbol ∈ savedSymbols table, symbol.name ≠ [] ∧ symbol.expression ≠ [] := by
  intro symbol inside
  obtain ⟨old, inKept, rfl⟩ := List.mem_map.mp inside
  obtain ⟨inTable, expressed⟩ := List.mem_filter.mp inKept
  exact ⟨(sound.named old (mem_symbols.mp inTable)).nonempty, by simpa using expressed⟩

/-- A symbol whose expression gives its address, and begins with no symbol that is not saved
before it, is found again after a save and a load, wherever no outgoing script takes its name
back. -/
theorem loadProjectFrom_returns {api : Conversion} {session : Env} {edits : List Edit}
    {saver loader : App} (history : saver.world.symbols = built session.resolver edits)
    (exports : SameExports session loader saver) {fileName : Text} {target : LastTarget}
    {unwritten : Option Failure} {text : Text}
    (saved : saveProjectTo api fileName target unwritten saver = .ok text) (envs : Nat → Env) :
    (loadProjectFrom api session envs fileName (some text) loader).2 = .ok () ∧
      ∀ symbol, Returns session.resolver (saver.view session) saver.world.symbols symbol →
        AutoAssembler.unnamed loader.scripts.withdrawn symbol = true →
          SymbolTable.find symbol.name
              (loadProjectFrom api session envs fileName (some text) loader).1.world.symbols =
            some symbol := by
  have sound : Sound saver.world.symbols := history ▸ built_sound session.resolver edits
  unfold saveProjectTo at saved
  split at saved
  · contradiction
  · cases saved
    have loaded := load_written api (projectTable target saver)
    obtain ⟨ok, world, _⟩ := loadProjectFrom_ok loaded session envs fileName loader
    refine ⟨ok, fun symbol returns stays => ?_⟩
    obtain ⟨inside, soundAgain⟩ :=
      defineSymbols_savedSymbols session.resolver (saver.view session) sound returns
    have defined : (loader.resymboled session ((tableFields api (projectTable target saver)).foldl
        (readRecord api) {})).symbols =
          defineSymbols session.resolver (saver.view session) (savedSymbols saver.world.symbols)
            [] := by
      show defineSymbols session.resolver (loader.view session) _ [] = _
      rw [written_symbols api (savedSymbols_storable sound), defineSymbols_alike exports]
      rfl
    rw [← defined] at inside soundAgain
    rw [world]
    exact (soundAgain.sublist (AutoAssembler.disableEach_fewer envs _ _ _)).find
      (AutoAssembler.disableAll_keeps loader.kept.ids envs inside stays) rfl

/-- An application with symbols and nothing else, attached. -/
def withSymbols (edits : List Edit) : App where
  world := { AutoAssembler.bareWorld with symbols := built AutoAssembler.bench.resolver edits }
  scripts := {}
  kept := noScripts_kept

def benchView : TargetView := AutoAssembler.bench.view 0 AutoAssembler.bareWorld.target.memory

def savedText (edits : List Edit) : Result Text :=
  saveProjectTo blankConversion [] {} none (withSymbols edits)

/-- The symbols after a save and a load by the same application. -/
def returned (edits : List Edit) : List Symbol :=
  (loadProjectFrom blankConversion AutoAssembler.bench (fun _ => AutoAssembler.bench) []
    (savedText edits).toOption (withSymbols edits)).1.world.symbols

/-- A symbol at an address, and one that is some bytes past it. -/
def chained : List Edit :=
  [.defineExpression benchView "Base".toList "1000".toList,
    .defineExpression benchView "health".toList "base+8".toList]

theorem chained_returned :
    SymbolTable.find "health".toList (returned chained) =
      some ⟨"health".toList, 0x1008, "base+8".toList⟩ := by
  have table : built AutoAssembler.bench.resolver chained =
      [⟨"Base".toList, 0x1000, "1000".toList⟩, ⟨"health".toList, 0x1008, "base+8".toList⟩] := by
    decide +kernel
  have base : Returns AutoAssembler.bench.resolver benchView
      (built AutoAssembler.bench.resolver chained) ⟨"Base".toList, 0x1000, "1000".toList⟩ := by
    rw [table]
    have head : headSymbol
        [⟨"Base".toList, 0x1000, "1000".toList⟩, ⟨"health".toList, 0x1008, "base+8".toList⟩]
        "1000".toList = none := by decide
    refine .intro _ List.mem_cons_self (by decide) (by decide +kernel) ?_ ?_
    · intro other same
      exact nomatch head.symm.trans same
    · intro other same
      exact nomatch head.symm.trans same
  have health : Returns AutoAssembler.bench.resolver benchView
      (built AutoAssembler.bench.resolver chained)
      ⟨"health".toList, 0x1008, "base+8".toList⟩ := by
    have head : headSymbol (built AutoAssembler.bench.resolver chained) "base+8".toList =
        some ⟨"Base".toList, 0x1000, "1000".toList⟩ := by
      rw [table]
      decide
    refine .intro _ (by rw [table]; decide) (by decide) (by rw [table]; decide +kernel) ?_ ?_
    · intro other same
      obtain rfl := Option.some.inj (head.symm.trans same)
      decide
    · intro other same
      obtain rfl := Option.some.inj (head.symm.trans same)
      exact base
  exact (@loadProjectFrom_returns blankConversion AutoAssembler.bench chained
    (withSymbols chained) (withSymbols chained) rfl (fun _ _ => rfl) [] {} none _ rfl
    (fun _ => AutoAssembler.bench)).2 _ health rfl

/-- A symbol whose expression begins with one at a fixed address. -/
def pinned : List Edit :=
  [.define "hook".toList 0x5000, .defineExpression benchView "health".toList "hook+8".toList]

/-- The fixed address is not saved, and what was defined from it cannot be defined again. -/
theorem pinned_lost :
    (withSymbols pinned).view AutoAssembler.bench = benchView ∧
      (withSymbols pinned).world.symbols =
        [⟨"hook".toList, 0x5000, []⟩, ⟨"health".toList, 0x5008, "hook+8".toList⟩] ∧
      resolve AutoAssembler.bench.resolver benchView (withSymbols pinned).world.symbols
        "hook+8".toList = .ok 0x5008 ∧
      (savedText pinned).isOk = true ∧
      SymbolTable.find "health".toList (returned pinned) = none :=
  ⟨rfl, by decide +kernel, by decide +kernel, rfl, by decide +kernel⟩

end App

end PointerLab
