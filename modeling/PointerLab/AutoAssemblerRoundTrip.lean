import PointerLab.AutoAssemblerFootprint

set_option autoImplicit false

/- Enabling a script and disabling it again: what the four stores the two of them share
hold afterwards. -/
namespace PointerLab.AutoAssembler

open Domain Runs SymbolTable Writes
open PatchRegistry (Succeeds Tidy settled_start)

/-- Whether a symbol has none of some names, in any spelling. -/
def unnamed (names : List Text) (symbol : Symbol) : Bool :=
  names.all fun name => !sameName symbol.name name

theorem unnamed_cons (name : Text) (names : List Text) (symbol : Symbol) :
    unnamed (name :: names) symbol = (!sameName symbol.name name && unnamed names symbol) := rfl

theorem undefineAll_eq (names : List Text) (table : List Symbol) :
    undefineAll names table = table.filter (unnamed names) := by
  induction names generalizing table with
  | nil =>
      rw [undefineAll, List.foldl_nil, List.filter_eq_self.mpr]
      exact fun _ _ => rfl
  | cons name rest ih =>
      rw [undefineAll, List.foldl_cons, ← undefineAll, ih, undefine, List.filter_filter]
      apply List.filter_congr
      intro symbol _
      rw [unnamed_cons, Bool.and_comm]

theorem filter_setAddress (name : Text) (address : Nat) (table : List Symbol) :
    (setAddress name address table).filter (fun symbol => !sameName symbol.name name) =
      table.filter fun symbol => !sameName symbol.name name := by
  induction table with
  | nil => simp [setAddress, sameName]
  | cons symbol rest ih =>
      rw [setAddress]
      split
      · rename_i same
        rw [List.filter_cons_of_neg (by simp [same]), List.filter_cons_of_neg (by simp [same])]
      · rw [List.filter_cons, List.filter_cons, ih]

/-- A name without blanks at its ends is refused, or it gets its address. -/
theorem define_cases {name : Text} (flush : Flush isBlank name) (address : Nat)
    (table : List Symbol) :
    (∃ failure, define name address table = (table, .error failure)) ∨
      define name address table = (setAddress name address table, .ok ()) := by
  have flushHere : Flush (fun c => c == ' ' || c == '\t') name := by
    constructor
    · intro c first
      have clear := flush.1 c first
      rw [isBlank, Bool.or_eq_false_iff] at clear
      exact clear.1
    · intro c last
      have clear := flush.2 c last
      rw [isBlank, Bool.or_eq_false_iff] at clear
      exact clear.1
  have same : SymbolTable.trim name = name := trimmed_of_flush flushHere
  simp only [define, same]
  split
  · exact Or.inl ⟨_, rfl⟩
  · split
    · exact Or.inl ⟨_, rfl⟩
    · split
      · exact Or.inl ⟨_, rfl⟩
      · exact Or.inr rfl

/-- Publishing changes only symbols of the names it has published. -/
theorem publish_filter {entries : List (Text × Nat)} (table : List Symbol)
    (flush : ∀ name ∈ entries.map (·.1), Flush isBlank name) :
    (publish entries table).1.filter (unnamed (publish entries table).2) =
      table.filter (unnamed (publish entries table).2) := by
  induction entries generalizing table with
  | nil => rfl
  | cons entry rest ih =>
      have later := fun name member => flush name (List.mem_cons_of_mem _ member)
      rcases define_cases (flush entry.1 List.mem_cons_self) entry.2 table with
        ⟨failure, refused⟩ | accepted
      · simp only [publish, refused]
        exact ih table later
      · simp only [publish, accepted]
        have split_ (list : List Symbol) (names : List Text) :
            list.filter (unnamed (entry.1 :: names)) =
              (list.filter (unnamed names)).filter fun symbol => !sameName symbol.name entry.1 := by
          rw [List.filter_filter]
          rfl
        rw [split_, ih _ later, split_, List.filter_filter, List.filter_filter]
        have swapped (list : List Symbol) (names : List Text) :
            list.filter (fun symbol => !sameName symbol.name entry.1 && unnamed names symbol) =
              (list.filter fun symbol => !sameName symbol.name entry.1).filter (unnamed names) := by
          rw [List.filter_filter]
          apply List.filter_congr
          intro symbol _
          rw [Bool.and_comm]
        rw [swapped, swapped, filter_setAddress]

/-- After publishing and undefining, the table is as it was unless it had one of the names. -/
theorem undefine_publish_iff {entries : List (Text × Nat)} (table : List Symbol)
    (flush : ∀ name ∈ entries.map (·.1), Flush isBlank name) (names : List Text) :
    undefineAll (publish entries table).2 (undefineAll names (publish entries table).1) = table ↔
      ∀ symbol ∈ table, unnamed (publish entries table).2 symbol = true ∧
        unnamed names symbol = true := by
  have both : undefineAll (publish entries table).2 (undefineAll names (publish entries table).1) =
      table.filter fun symbol =>
        unnamed names symbol && unnamed (publish entries table).2 symbol := by
    rw [undefineAll_eq, undefineAll_eq, ← List.filter_filter, ← publish_filter table flush,
      List.filter_filter, List.filter_filter]
    apply List.filter_congr
    intro symbol _
    rw [Bool.and_comm]
  rw [both, List.filter_eq_self]
  refine forall₂_congr fun symbol member => ?_
  rw [Bool.and_eq_true, and_comm]

/-- The addresses that names of a [DISABLE] section stand for. -/
def freedAddresses (allocations : List Allocation) (names : List Text) : List Nat :=
  names.filterMap fun name =>
    (allocations.find? fun allocation => allocation.name == name).map (·.address)

theorem freedAddresses_none {allocations : List Allocation} {name : Text} (names : List Text)
    (found : allocations.find? (fun allocation => allocation.name == name) = none) :
    freedAddresses allocations (name :: names) = freedAddresses allocations names := by
  rw [freedAddresses, List.filterMap_cons, found]
  rfl

theorem freedAddresses_some {allocations : List Allocation} {name : Text} {allocation : Allocation}
    (names : List Text)
    (found : allocations.find? (fun allocation => allocation.name == name) = some allocation) :
    freedAddresses allocations (name :: names) =
      allocation.address :: freedAddresses allocations names := by
  rw [freedAddresses, List.filterMap_cons, found]
  rfl

/-- Giving back by name is freeing the addresses of the names. -/
theorem deallocate_world (env : Env) (allocations : List Allocation) (names : List Text)
    (world : World) : (deallocate env allocations names world).1 =
      freeAll env (freedAddresses allocations names) world := by
  induction names generalizing world with
  | nil => rfl
  | cons name rest ih =>
      cases found : allocations.find? fun allocation => allocation.name == name with
      | none =>
          simp only [deallocate, found]
          rw [ih, freedAddresses_none rest found]
      | some allocation =>
          rw [freedAddresses_some rest found, freeAll, List.foldl_cons, ← freeAll, ← ih]
          simp only [deallocate, found]
          rcases world.free env allocation.address with ⟨after, failure | reply⟩ <;> rfl

/-- Where every free succeeds, the names that are not the script's are the only problem. -/
theorem deallocate_problems {env : Env} (frees : ∀ address, env.freed address = none)
    (allocations : List Allocation) (names : List Text) (world : World) :
    (deallocate env allocations names world).2 = [] ↔
      ∀ name ∈ names, ∃ allocation ∈ allocations, allocation.name = name := by
  induction names generalizing world with
  | nil => simp [deallocate]
  | cons name rest ih =>
      rw [List.forall_mem_cons]
      cases found : allocations.find? fun allocation => allocation.name == name with
      | none =>
          simp only [deallocate, found, List.cons_ne_nil, false_iff]
          rintro ⟨⟨allocation, member, same⟩, _⟩
          have unlike := List.find?_eq_none.mp found allocation member
          simp [same] at unlike
      | some allocation =>
          have own : ∃ allocation ∈ allocations, allocation.name = name :=
            ⟨allocation, List.mem_of_find?_eq_some found, by simpa using List.find?_some found⟩
          simp only [deallocate, found, World.free, frees, own, true_and]
          exact ih _

/-- The world a [DISABLE] section meets: the patches of the script are off. -/
def unpatched (back : Env) (state : RunState) (world : World) : World :=
  { world with target := (removeAll back state.patchIds.reverse world.target).1 }

/-- What a compiled [DISABLE] section has to do for the enable to be undone. -/
structure Reverses (env : Env) (script : Script) (stored : SymbolMap) (world : World)
    (state : RunState) (result : CompileResult) : Prop where
  /-- It names only allocations of the script, as the script spelled them. -/
  known : ∀ name ∈ result.deallocations, ∃ allocation ∈ state.allocations, allocation.name = name
  /-- Every block of the script is the first of a name it gives back. -/
  given : ∀ region ∈ taken env script stored world,
    region.base ∈ freedAddresses state.allocations result.deallocations
  /-- No symbol of before has a name the two sections withdraw. -/
  foreign : ∀ symbol ∈ world.symbols, unnamed state.registeredSymbols symbol = true ∧
    unnamed result.unregisterSymbols symbol = true
  /-- What was written without a record, outside of the blocks, is what was there. -/
  behind : ∀ place byte, (∀ region ∈ taken env script stored world, ¬region.Holds place) →
    leftBehind (writes env script stored world) place = some byte →
      world.target.memory place = byte

/-- The [DISABLE] section compiles, allocates nothing, and reverses the enable. -/
def ComesBack (env back : Env) (script : Script) (stored : SymbolMap) (world : World)
    (state : RunState) (enabled : World) : Prop :=
  match compile back true script.source false state.symbols (unpatched back state enabled) with
  | (_, .error _) => False
  | (after, .ok compiled) =>
      after.blocks = enabled.blocks ∧ Reverses env script stored world state compiled.result

/-- Blocks are back to what they were when all that came are gone. -/
theorem blocks_back_iff {old regions more : List Region} {freed : List Nat}
    (own : ∀ address ∈ freed, ∃ region ∈ regions, region.base = address)
    (fresh : ∀ region ∈ regions, ∀ block ∈ old, block.base ≠ region.base)
    (later : ∀ region ∈ more, ∀ block ∈ old ++ regions, block.base ≠ region.base) :
    (old ++ regions ++ more).filter (fun block => !freed.any (· == block.base)) = old ↔
      more = [] ∧ ∀ region ∈ regions, region.base ∈ freed := by
  have stay (list : List Region) (apart : ∀ block ∈ list, ∀ region ∈ regions,
      region.base ≠ block.base) :
      list.filter (fun block => !freed.any (· == block.base)) = list := by
    rw [List.filter_eq_self]
    intro block member
    rw [Bool.not_eq_true', List.any_eq_false]
    intro address inFreed same
    obtain ⟨region, inRegions, rfl⟩ := own address inFreed
    exact apart block member region inRegions (beq_iff_eq.mp same)
  rw [List.filter_append, List.filter_append,
    stay old fun block member region inRegions => (fresh region inRegions block member).symm,
    stay more fun block member region inRegions =>
      later block member region (List.mem_append_right _ inRegions),
    List.append_assoc, List.append_right_eq_self, List.append_eq_nil_iff, List.filter_eq_nil_iff,
    and_comm]
  refine and_congr_right fun _ => forall₂_congr fun region _ => ?_
  simp

theorem disableReply_ok (problems : List String) :
    disableReply problems = .ok () ↔ problems = [] := by
  unfold disableReply
  cases problems <;> simp

/-- A disable whose section compiles and writes nothing: the blocks it names are gone, and so
are the symbols of both sections. -/
theorem runDisable_compiled {back : Env} {script : Script} {state : RunState} {world after : World}
    {compiled : Compiled} (frees : ∀ address, back.freed address = none)
    (removed : (removeAll back state.patchIds.reverse world.target).2 = [])
    (compiles : compile back true script.source false state.symbols (unpatched back state world) =
      (after, .ok compiled)) (quiet : compiled.result.blocks = []) :
    (runDisable back script state world).1 =
        { target := after.target
          blocks := after.blocks.filter fun block =>
            !(freedAddresses state.allocations compiled.result.deallocations).any (· == block.base)
          symbols := undefineAll state.registeredSymbols
            (undefineAll compiled.result.unregisterSymbols after.symbols) } ∧
      ((runDisable back script state world).2.2 = .ok () ↔
        ∀ name ∈ compiled.result.deallocations, ∃ allocation ∈ state.allocations,
          allocation.name = name) := by
  rcases taken_ : removeAll back state.patchIds.reverse world.target with ⟨target, problems⟩
  rw [taken_] at removed
  obtain rfl : problems = [] := removed
  have compiles_ : compile back true script.source false state.symbols { world with target } =
      (after, .ok compiled) := by
    rw [unpatched, taken_] at compiles
    exact compiles
  simp only [runDisable, taken_, compiles_, carryOut, quiet, restoreBlocks, List.nil_append,
    deallocate_world, freeAll_eq, frees, Option.isNone_none, Bool.and_true,
    disableReply_ok, deallocate_problems frees, and_self]

theorem runDisable_refused {back : Env} {script : Script} {state : RunState} {world after : World}
    {message : String}
    (compiles : compile back true script.source false state.symbols (unpatched back state world) =
      (after, .error message)) : (runDisable back script state world).2.2 ≠ .ok () := by
  rcases taken_ : removeAll back state.patchIds.reverse world.target with ⟨target, problems⟩
  have compiles_ : compile back true script.source false state.symbols { world with target } =
      (after, .error message) := by
    rw [unpatched, taken_] at compiles
    exact compiles
  simp only [runDisable, taken_, compiles_, Ne, disableReply_ok, List.append_eq_nil_iff,
    List.cons_ne_nil, and_false, not_false_eq_true]

/-- What a disable comes to, from a target where the script's patches are its own to take
off. -/
theorem runDisable_restores_iff {env back : Env} {script : Script} {stored : SymbolMap}
    {state : RunState} {world enabled : World} {undone : PatchRegistry.Patched}
    {entries : List (Text × Nat)} (frees : ∀ address, back.freed address = none)
    (removed : removeAll back state.patchIds.reverse enabled.target = (undone, []))
    (records : undone.registry.patches = world.target.registry.patches)
    (memory : ∀ place, (∀ region ∈ taken env script stored world, ¬region.Holds place) →
      undone.memory place =
        (leftBehind (writes env script stored world) place).getD (world.target.memory place))
    (blocks : enabled.blocks = world.blocks ++ taken env script stored world)
    (fresh : ∀ region ∈ taken env script stored world, ∀ block ∈ world.blocks,
      block.base ≠ region.base)
    (addresses : state.allocations.map (·.address) =
      (taken env script stored world).map (·.base))
    (symbols : enabled.symbols = (publish entries world.symbols).1)
    (names : state.registeredSymbols = (publish entries world.symbols).2)
    (flush : ∀ name ∈ entries.map (·.1), Flush isBlank name)
    (quiet : ∀ after compiled, compile back true script.source false state.symbols
      (unpatched back state enabled) = (after, .ok compiled) → compiled.result.blocks = []) :
    (Restored (taken env script stored world) world (runDisable back script state enabled).1 ∧
        (runDisable back script state enabled).2.2 = .ok ()) ↔
      ComesBack env back script stored world state enabled := by
  have met : unpatched back state enabled = { enabled with target := undone } := by
    rw [unpatched, removed]
  unfold ComesBack
  rcases compiles : compile back true script.source false state.symbols
    (unpatched back state enabled) with ⟨after, message | compiled⟩
  · have refused := runDisable_refused compiles
    simp only [refused, and_false]
  · obtain ⟨left, reply⟩ := runDisable_compiled frees (by rw [removed]) compiles
      (quiet after compiled compiles)
    obtain ⟨more, takes, _⟩ := compile_takes back script.source false state.symbols
      (unpatched back state enabled)
    rw [compiles, met] at takes
    have own : ∀ address ∈ freedAddresses state.allocations compiled.result.deallocations,
        ∃ region ∈ taken env script stored world, region.base = address := by
      intro address member
      obtain ⟨name, _, found⟩ := List.mem_filterMap.mp member
      obtain ⟨allocation, isFirst, rfl⟩ := Option.map_eq_some_iff.mp found
      have listed := List.mem_map_of_mem (f := (·.address)) (List.mem_of_find?_eq_some isFirst)
      rw [addresses] at listed
      exact List.mem_map.mp listed
    have later : ∀ region ∈ more, ∀ block ∈ world.blocks ++ taken env script stored world,
        block.base ≠ region.base := by
      rw [← blocks]
      exact takes.fresh
    have blocksBack := blocks_back_iff own fresh later
    have grown : after.blocks = world.blocks ++ taken env script stored world ++ more := by
      rw [takes.blocks, ← blocks]
    have symbolsBack := undefine_publish_iff world.symbols flush compiled.result.unregisterSymbols
    have kept : after.symbols = (publish entries world.symbols).1 := takes.symbols.trans symbols
    rw [reply, left]
    constructor
    · rintro ⟨restored, known⟩
      have given := restored.blocks
      have foreign := restored.symbols
      dsimp only at given foreign
      rw [grown, blocksBack] at given
      rw [names, kept, symbolsBack] at foreign
      obtain ⟨rfl, given⟩ := given
      refine ⟨by rw [takes.blocks, List.append_nil], known, given, ?_, ?_⟩
      · rw [names]
        exact foreign
      · intro place byte outside behind
        have same := restored.memory place outside
        dsimp only at same
        rw [takes.memory place nofun, memory place outside, behind, Option.getD_some] at same
        exact same.symm
    · rintro ⟨none, known, given, foreign, behind⟩
      have nothing : more = [] := by
        rw [takes.blocks] at none
        exact List.append_right_eq_self.mp none
      subst nothing
      refine ⟨⟨?_, ?_, ?_, ?_⟩, known⟩
      · intro place outside
        dsimp only
        rw [takes.memory place nofun, memory place outside]
        cases left : leftBehind (writes env script stored world) place with
        | none => rfl
        | some byte => exact (behind place byte outside left).symm
      · dsimp only
        rw [grown, blocksBack]
        exact ⟨rfl, given⟩
      · exact (congrArg PatchRegistry.Registry.patches takes.registry).trans records
      · dsimp only
        rw [names, kept, symbolsBack, ← names]
        exact foreign

/-- A disable undoes an enable exactly when the [DISABLE] section reverses it. -/
theorem runDisable_runEnable_iff {env back : Env} {script : Script} {state : RunState}
    {world : World} (numbered : Numbered world.target.registry) (owns : OwnsNothing state)
    (undo : ∀ patch, Succeeds (back.undo patch)) (frees : ∀ address, back.freed address = none)
    (ok : (runEnable env script state world).2.2 = .ok ())
    (quiet : ∀ after compiled, compile back true script.source false
      (runEnable env script state world).2.1.symbols
      (unpatched back (runEnable env script state world).2.1 (runEnable env script state world).1) =
        (after, .ok compiled) → compiled.result.blocks = []) :
    (Restored (taken env script state.symbols world) world
          (runDisable back script (runEnable env script state world).2.1
            (runEnable env script state world).1).1 ∧
        (runDisable back script (runEnable env script state world).2.1
          (runEnable env script state world).1).2.2 = .ok ()) ↔
      ComesBack env back script state.symbols world (runEnable env script state world).2.1
        (runEnable env script state world).1 := by
  have result := runEnable_result env script state world
  generalize runEnable env script state world = outcome at result ok quiet
  obtain ⟨takes, allocations⟩ := compile_taken env script state.symbols world
  cases result with
  | refused => cases ok
  | rolledBack => cases ok
  | enabled mid compiled target ids compiles wrote =>
      rw [compiles] at takes allocations
      have isWritten : writes env script state.symbols world =
          written env script.name 0 compiled.result.blocks mid.target := by
        rw [writes, compiles]
      obtain ⟨undone, removed, records, memory⟩ := @removeAll_writeBlocks env script.name 0
        mid.target back undo compiled.result.blocks (takes.registry ▸ numbered)
      rw [wrote] at removed
      rw [← isWritten] at memory
      refine runDisable_restores_iff frees ?_ (records.trans (by rw [takes.registry])) ?_
        takes.blocks takes.fresh (allocations compiled rfl) ?_ ?_ (compile_registered compiles) quiet
      · show removeAll back (state.patchIds ++ ids).reverse target = (undone, [])
        rw [owns.1, List.nil_append]
        exact removed
      · intro place outside
        rw [memory, putBack_apply, takes.memory place outside]
      · show (publish _ mid.symbols).1 = _
        rw [takes.symbols]
      · show state.registeredSymbols ++ (publish _ mid.symbols).2 = _
        rw [owns.2.2, takes.symbols, List.nil_append]

/-- The list after a run. -/
theorem find_store {s : Scripts} {id : Nat} {script : Script} (found : s.find id = some script)
    (enabled : Bool) (state : RunState) (outcome : Except String Unit) :
    (store id enabled state outcome s).find id =
        some { script with enabled := enabled && outcome.isOk } ∧
      (store id enabled state outcome s).stored id = state := by
  constructor
  · show (changeScript id _ s.scripts).find? _ = _
    have same : s.scripts.find? (fun script => script.id == id) = some script := found
    rw [find_changeScript (by intro; rfl), same]
    rfl
  · show (s.states.insert id state)[id]?.getD {} = state
    rw [Tables.getElem?_insert, if_pos rfl, Option.getD_some]

/-- Turning a script off after it was turned on brings everything back, and says so, exactly
when its [DISABLE] section reverses what the enable did. -/
theorem setEnabled_round_trip_iff {s : Scripts} (reached : Reached step (fun _ _ => True) {} s)
    {env back : Env} {id : Nat} {world : World} {script : Script}
    (tidy : Tidy world.target.registry) (undo : ∀ patch, Succeeds (back.undo patch))
    (frees : ∀ address, back.freed address = none) (found : s.find id = some script)
    (off : script.enabled = false) (ok : (setEnabled env id true world s).2.2 = .ok ())
    (quiet : ∀ after compiled,
      compile back true script.source false
          ((setEnabled env id true world s).2.1.stored id).symbols
          (unpatched back ((setEnabled env id true world s).2.1.stored id)
            (setEnabled env id true world s).1) = (after, .ok compiled) →
        compiled.result.blocks = []) :
    (Restored (taken env script (s.stored id).symbols world) world
          (setEnabled back id false (setEnabled env id true world s).1
            (setEnabled env id true world s).2.1).1 ∧
        (setEnabled back id false (setEnabled env id true world s).1
          (setEnabled env id true world s).2.1).2.2 = .ok ()) ↔
      ComesBack env back script (s.stored id).symbols world
        ((setEnabled env id true world s).2.1.stored id) (setEnabled env id true world s).1 := by
  obtain ⟨member, rfl⟩ := find_eq_some found
  have owns := (ownsNothing_reached reached).idle script member off
  rw [setEnabled_runs found (off ▸ Bool.false_ne_true)] at ok quiet ⊢
  dsimp only at ok quiet ⊢
  rw [ok] at quiet ⊢
  obtain ⟨foundOn, storedOn⟩ := find_store found true
    (runScript env script true (s.stored script.id) world).2.1 (.ok ())
  rw [storedOn] at quiet ⊢
  rw [setEnabled_runs foundOn Bool.false_ne_true.symm, storedOn]
  exact runDisable_runEnable_iff (numbered_of_tidy tidy) owns undo frees ok quiet

/-- A byte into an allocation that is given back, a name for it, and a patch. -/
def returningSource : String :=
  "alloc(m, 100)\nregistersymbol(m)\nm:\ndb 1\n20000000:\nnop\n[DISABLE]\ndealloc(m)"

def returningScript : Script := ⟨1, "Script 1".toList, returningSource.toList, false⟩

def returningOn : World × Scripts × Except String Unit :=
  setEnabled bench 1 true bareWorld (oneScript returningSource)

/-- What its [DISABLE] section compiles to there. -/
def returningOff : World × Except String Compiled :=
  compile bench true returningSource.toList false (returningOn.2.1.stored 1).symbols
    (unpatched bench (returningOn.2.1.stored 1) returningOn.1)

theorem returningScript_comes_back :
    Restored (taken bench returningScript [] bareWorld) bareWorld
        (setEnabled bench 1 false returningOn.1 returningOn.2.1).1 ∧
      (setEnabled bench 1 false returningOn.1 returningOn.2.1).2.2 = .ok () := by
  have disabling : returningOff.2.toOption.map (·.result) =
      some { deallocations := ["m".toList] } := by decide
  have blocks : returningOff.1.blocks = returningOn.1.blocks := by decide
  have took : taken bench returningScript [] bareWorld = [⟨0x10000, 0x1000⟩] := by decide
  have wrote : writes bench returningScript [] bareWorld =
      [⟨0x10000, [1], false⟩, ⟨0x20000000, [0x90], true⟩] := by decide
  have own : (returningOn.2.1.stored 1).allocations = [⟨"m".toList, 0x10000, 0x100⟩] := by decide
  have result {after : World} {compiled : Compiled} (compiles : returningOff = (after, .ok compiled)) :
      compiled.result = { deallocations := ["m".toList] } := by
    rw [compiles] at disabling
    exact Option.some.inj disabling
  apply (@setEnabled_round_trip_iff (oneScript returningSource) (oneScript_reached _) bench bench 1
    bareWorld returningScript (settled_start _).tidy (fun _ => ⟨rfl, rfl⟩) (fun _ => rfl) rfl rfl rfl
    (fun after compiled compiles => by rw [result compiles])).mpr
  show match returningOff with
    | (_, .error _) => False
    | (after, .ok compiled) => after.blocks = returningOn.1.blocks ∧ Reverses bench returningScript
        [] bareWorld (returningOn.2.1.stored 1) compiled.result
  rcases compiles : returningOff with ⟨after, message | compiled⟩
  · rw [compiles] at disabling
    cases disabling
  · rw [compiles] at blocks
    refine ⟨blocks, ?_⟩
    rw [result compiles]
    constructor
    · intro name member
      rw [own]
      obtain rfl := List.mem_singleton.mp member
      exact ⟨_, List.mem_cons_self, rfl⟩
    · intro region member
      rw [took] at member
      obtain rfl := List.mem_singleton.mp member
      rw [own]
      decide
    · exact fun _ impossible => absurd impossible List.not_mem_nil
    · intro place byte outside behind
      rw [took] at outside
      rw [wrote] at behind
      obtain ⟨write, member, bare, here⟩ := exists_of_leftBehind behind
      have covers := Write.covers_of_at? here
      simp only [List.mem_cons, List.not_mem_nil, or_false] at member
      rcases member with rfl | rfl
      · apply absurd _ (outside _ List.mem_cons_self)
        simp only [Write.Covers, List.length_cons, List.length_nil] at covers
        simp only [Region.Holds]
        omega
      · cases bare

/-- A block named like a symbol of the user, and one given back in another spelling. -/
def strayingScripts : String × String :=
  ("alloc(x, 100)\nregistersymbol(x)\n[DISABLE]\ndealloc(x)",
    "alloc(m, 100)\n[DISABLE]\ndealloc(M)")

def namedWorld : World := { bareWorld with symbols := [⟨"x".toList, 5, []⟩] }

def strayingOff (source : String) : World × Scripts × Except String Unit :=
  let (world, s, _) := setEnabled bench 1 true namedWorld (oneScript source)
  setEnabled bench 1 false world s

/-- The first script takes the user's symbol with it, and says that all went well; the second
one's block stays, and the disable fails. -/
theorem strayingScripts_stray :
    (setEnabled bench 1 true namedWorld (oneScript strayingScripts.1)).2.2.isOk = true ∧
      (strayingOff strayingScripts.1).2.2.isOk = true ∧
      (strayingOff strayingScripts.1).1.symbols = [] ∧
      (setEnabled bench 1 true namedWorld (oneScript strayingScripts.2)).2.2.isOk = true ∧
      (strayingOff strayingScripts.2).2.2.isOk = false ∧
      (strayingOff strayingScripts.2).1.blocks = [⟨0x10000, 0x1000⟩] := by
  decide

end PointerLab.AutoAssembler
