import PointerLab.AutoAssemblerAllocations
import PointerLab.AutoAssemblerEffects
import PointerLab.AutoAssemblerIdle
import PointerLab.AutoAssemblerStretches

set_option autoImplicit false

/- What an enable that fails leaves of the target, the patches, the allocations and the
symbols. -/
namespace PointerLab.AutoAssembler

open Domain
open PatchRegistry (Registry Patched Succeeds Tidy settled_start)
open Runs Writes

/-- The state of a script with nothing in the target. -/
def OwnsNothing (state : RunState) : Prop :=
  state.patchIds = [] ∧ state.allocations = [] ∧ state.registeredSymbols = []

theorem ownsNothing_runDisable (env : Env) (script : Script) (state : RunState) (world : World) :
    OwnsNothing (runDisable env script state world).2.1 := by
  simp only [runDisable]
  split <;> exact ⟨rfl, rfl, rfl⟩

/-- All that `runEnable` can do: refuse the script, take back what it has written, or finish. -/
inductive EnableResult (env : Env) (script : Script) (state : RunState) (world : World) :
    World × RunState × Except String Unit → Prop
  | refused (after : World) (message : String)
      (compiles : compile env true script.source true state.symbols world = (after, .error message)) :
      EnableResult env script state world (after, state, .error message)
  | rolledBack (after : World) (compiled : Compiled) (target : Patched) (ids : List Nat)
      (message : String)
      (compiles : compile env true script.source true state.symbols world = (after, .ok compiled))
      (writes : writeBlocks env script.name 0 compiled.result.blocks after.target =
        (target, ids, .error message)) :
      EnableResult env script state world
        (freeAll env (compiled.result.allocations.map (·.address))
          { after with target := (removeAll env (state.patchIds ++ ids).reverse target).1 },
        { state with
          symbols := OrderedMap.assignAll caseful compiled.layout state.symbols
          patchIds := [] }, .error message)
  | enabled (after : World) (compiled : Compiled) (target : Patched) (ids : List Nat)
      (compiles : compile env true script.source true state.symbols world = (after, .ok compiled))
      (writes : writeBlocks env script.name 0 compiled.result.blocks after.target =
        (target, ids, .ok ())) :
      EnableResult env script state world
        ({ after with
          target := target
          symbols := (publish compiled.result.registerSymbols after.symbols).1 },
        { patchIds := state.patchIds ++ ids
          allocations := compiled.result.allocations
          registeredSymbols := state.registeredSymbols ++
            (publish compiled.result.registerSymbols after.symbols).2
          notes := compiled.result.notes
          symbols := OrderedMap.assignAll caseful compiled.layout state.symbols }, .ok ())

theorem runEnable_result (env : Env) (script : Script) (state : RunState) (world : World) :
    EnableResult env script state world (runEnable env script state world) := by
  rcases compiles : compile env true script.source true state.symbols world with
    ⟨after, message | compiled⟩
  · simp only [runEnable, compiles]
    exact .refused after message compiles
  · rcases writes : writeBlocks env script.name 0 compiled.result.blocks after.target with
      ⟨target, ids, message | reply⟩
    · simp only [runEnable, compiles, writes]
      exact .rolledBack after compiled target ids message compiles writes
    · simp only [runEnable, compiles, writes]
      exact .enabled after compiled target ids compiles writes

theorem ownsNothing_runEnable {env : Env} {script : Script} {state : RunState} {world : World}
    {message : String} (owns : OwnsNothing state)
    (failed : (runEnable env script state world).2.2 = .error message) :
    OwnsNothing (runEnable env script state world).2.1 := by
  have result := runEnable_result env script state world
  generalize runEnable env script state world = outcome at result failed
  cases result with
  | refused => exact owns
  | rolledBack => exact ⟨rfl, owns.2⟩
  | enabled => cases failed

/-- A script that is off owns nothing, whatever was done with it before. -/
theorem ownsNothing_reached {s : Scripts} (reached : Reached step (fun _ _ => True) {} s) :
    Kept OwnsNothing s :=
  kept_reached reached ⟨rfl, rfl, rfl⟩ ownsNothing_runDisable
    fun _ _ _ _ _ _ _ _ _ owns failed => ownsNothing_runEnable owns failed

/-- The regions that compiling the [ENABLE] section of a script allocates. -/
def taken (env : Env) (script : Script) (stored : SymbolMap) (world : World) : List Region :=
  (compile env true script.source true stored world).1.blocks.drop world.blocks.length

/-- The writes of its blocks, up to the first that fails. -/
def writes (env : Env) (script : Script) (stored : SymbolMap) (world : World) :
    List (Write UInt8) :=
  match compile env true script.source true stored world with
  | (_, .error _) => []
  | (after, .ok compiled) => written env script.name 0 compiled.result.blocks after.target

theorem compile_taken (env : Env) (script : Script) (stored : SymbolMap) (world : World) :
    Takes world (compile env true script.source true stored world).1 (taken env script stored world) ∧
      ∀ compiled, (compile env true script.source true stored world).2 = .ok compiled →
        compiled.result.allocations.map (·.address) =
          (taken env script stored world).map (·.base) := by
  obtain ⟨regions, takes, allocations⟩ := compile_takes env script.source true stored world
  have same : taken env script stored world = regions := by
    rw [taken, takes.blocks, List.drop_left]
  rw [same]
  refine ⟨takes, fun compiled ok => ?_⟩
  rw [← allocations compiled ok, List.map_map]
  rfl

/-- The bytes outside some regions, the blocks, the records and the symbols are as before. -/
structure Restored (regions : List Region) (before after : World) : Prop where
  memory : ∀ place, (∀ region ∈ regions, ¬region.Holds place) →
    after.target.memory place = before.target.memory place
  blocks : after.blocks = before.blocks
  patches : after.target.registry.patches = before.target.registry.patches
  symbols : after.symbols = before.symbols

/-- What the rollback of a section that has compiled leaves of it is what was there: its blocks can
be freed, and the bytes written without a record, outside of these, are the ones that were there. -/
structure TakesBack (env : Env) (name : Text) (world : World) (known : Known)
    (pieces : List Stretch) : Prop where
  freed : ∀ allocation ∈ known.result.allocations, env.freed allocation.address = none
  kept : ∀ place byte,
    (∀ allocation ∈ known.result.allocations, ¬allocation.region.Holds place) →
      leftBehind (written env name 0 (blocksOf known.allocatedRanges pieces) known.world.target)
        place = some byte → world.target.memory place = byte

/-- A stretch that starts in an allocation ends in the pages of it, and a patch that cannot be
written leaves none of its bytes. -/
structure Stays (env : Env) (known : Known) (pieces : List Stretch) : Prop where
  freed : ∀ allocation ∈ known.result.allocations, env.freed allocation.address = none
  inside : ∀ piece ∈ pieces, insideAllocation known.allocatedRanges piece.start = true →
    ∃ allocation ∈ known.result.allocations, allocation.address ≤ piece.start ∧
      piece.start + piece.bytes.length ≤ allocation.address + pages allocation.size
  whole : ∀ index block, (blocksOf known.allocatedRanges pieces)[index]? = some block →
    block.intoAllocation = false → env.torn index = 0

/-- The lines of a script's [ENABLE] section, and what is known before the first of them. -/
def enableLines (script : Script) : List Line := sectionLines script.source true

def enableStart (stored : SymbolMap) (world : World) : Known :=
  { world, symbols := OrderedMap.assignAll caseLess stored [] }

/-- No `alloc` directive comes before a line that is wrong, and what compiles into stretches can be
taken back. -/
structure Undoes (gives : Known → List Stretch → Prop) (env : Env) (script : Script)
    (stored : SymbolMap) (world : World) : Prop where
  refused : ∀ message, (compile env true script.source true stored world).2 = .error message →
    env.attached = true → AllocatesNothing env (enableLines script) (enableStart stored world)
  written : ∀ compiled known pieces,
    (compile env true script.source true stored world).2 = .ok compiled →
      (readLines env true (enableLines script) (enableStart stored world)).2 = .ok known →
        cutAtOrigins (known.section env) (OrderedMap.find caseLess · compiled.layout)
          (enableLines script) = some pieces → gives known pieces

theorem tornBytes_length (env : Env) (index : Nat) (block : Block) (bytes : List UInt8)
    (target : Patched) :
    (tornBytes env index block bytes target).length ≤ env.torn index ∧
      (tornBytes env index block bytes target).length ≤ bytes.length := by
  unfold tornBytes
  dsimp only
  split_ifs
  all_goals
    simp only [List.length_take, List.length_nil]
    omega

/-- A write without a record is that of a block in an allocation, or what a failed one leaves. -/
theorem mem_written {env : Env} {name : Text} {index : Nat} {blocks : List Block}
    {target : Patched} {write : Write UInt8} (member : write ∈ written env name index blocks target)
    (bare : write.recorded = false) :
    ∃ (place : Nat) (block : Block), blocks[place]? = some block ∧ write.address = block.address ∧
      write.cells.length ≤
        if block.intoAllocation then block.bytes.length else env.torn (index + place) := by
  induction blocks generalizing index target with
  | nil => exact absurd member List.not_mem_nil
  | cons block rest ih =>
      rw [written] at member
      split at member
      · have short := tornBytes_length env index block (asWrite env block target.memory).cells target
        rw [List.mem_singleton.mp member]
        refine ⟨0, block, rfl, rfl, ?_⟩
        cases into : block.intoAllocation with
        | true =>
            have cells : (asWrite env block target.memory).cells = block.bytes := by
              simp only [asWrite, into, ↓reduceIte]
            exact cells ▸ short.2
        | false => exact short.1
      · rcases List.mem_cons.mp member with rfl | later
        · have into : block.intoAllocation = true := by simpa [asWrite] using bare
          refine ⟨0, block, rfl, rfl, ?_⟩
          simp only [asWrite, into, ↓reduceIte, Nat.le_refl]
        · obtain ⟨place, found, at_, address, length⟩ := ih later
          refine ⟨place + 1, found, at_, address, ?_⟩
          rwa [← Nat.add_assoc, Nat.add_right_comm]

/-- Stretches that stay where they began are given back whole. -/
theorem Stays.takesBack {env : Env} {known : Known} {pieces : List Stretch}
    (stays : Stays env known pieces) (name : Text) (world : World) :
    TakesBack env name world known pieces where
  freed := stays.freed
  kept := by
    intro place byte outside left
    obtain ⟨write, member, bare, here⟩ := exists_of_leftBehind left
    have covers := Write.covers_of_at? here
    obtain ⟨index, block, found, address, length⟩ := mem_written member bare
    unfold Write.Covers at covers
    have inBlocks := List.mem_of_getElem? found
    rw [blocksOf, filled, List.mem_filter, List.mem_map] at inBlocks
    obtain ⟨⟨piece, inPieces, rfl⟩, _⟩ := inBlocks
    cases into : (piece.block known.allocatedRanges).intoAllocation with
    | false =>
        have none := stays.whole index _ found into
        rw [into, Nat.zero_add, none] at length
        simp only [Bool.false_eq_true, ↓reduceIte] at length
        omega
    | true =>
        obtain ⟨allocation, taken, low, high⟩ := stays.inside piece inPieces into
        simp only [into, ↓reduceIte] at length
        refine absurd ?_ (outside allocation taken)
        simp only [Stretch.block] at address length
        simp only [Region.Holds, Allocation.region]
        omega

/-- The first pass of a section that compiles leaves the target as the second one finds it, with the
regions of its allocations taken. -/
theorem readLines_taken {env : Env} {script : Script} {stored : SymbolMap} {world ended : World}
    {known : Known} (reads : readLines env true (enableLines script) (enableStart stored world) =
      (ended, .ok known)) {compiled : Compiled}
    (compiles : compile env true script.source true stored world = (ended, .ok compiled)) :
    known.world = ended ∧
      taken env script stored world = known.result.allocations.map Allocation.region := by
  obtain ⟨regions, takes, passed⟩ := @readLines_takes env (enableLines script)
    (enableStart stored world)
  rw [reads] at takes passed
  obtain ⟨same, added⟩ := passed known rfl
  refine ⟨same, ?_⟩
  rw [taken, compiles, takes.blocks, added]
  exact List.drop_left

/-- What compiles undoes when what its stretches leave can be taken back. -/
theorem undoes_compiled_iff {gives : Known → List Stretch → Prop} {env : Env} {script : Script}
    {stored : SymbolMap} {world after : World} {compiled : Compiled} {known : Known}
    {pieces : List Stretch}
    (compiles : compile env true script.source true stored world = (after, .ok compiled))
    (reads : readLines env true (enableLines script) (enableStart stored world) =
      (known.world, .ok known))
    (cut : cutAtOrigins (known.section env) (OrderedMap.find caseLess · compiled.layout)
      (enableLines script) = some pieces) :
    Undoes gives env script stored world ↔ gives known pieces := by
  constructor
  · intro undoes
    exact undoes.written compiled known pieces (by rw [compiles]) (congrArg Prod.snd reads) cut
  · intro given
    refine ⟨fun problem refused => ?_, fun again other more ok readsAgain cutAgain => ?_⟩
    · rw [compiles] at refused
      cases refused
    · rw [compiles] at ok
      cases ok
      have one := readsAgain.symm.trans (congrArg Prod.snd reads)
      cases one
      rw [Option.some.inj (cutAgain.symm.trans cut)]
      exact given

/-- What does not compile undoes when it has allocated nothing. -/
theorem undoes_refused_iff {gives : Known → List Stretch → Prop} {env : Env} {script : Script}
    {stored : SymbolMap} {world after : World} {message : String}
    (compiles : compile env true script.source true stored world = (after, .error message)) :
    Undoes gives env script stored world ↔ after.blocks = world.blocks := by
  rw [compile_refused_iff compiles]
  constructor
  · intro undoes
    exact undoes.refused message (by rw [compiles])
  · intro nothing
    refine ⟨fun _ _ => nothing, fun compiled known pieces ok => ?_⟩
    rw [compiles] at ok
    cases ok

theorem runEnable_restores_iff {env : Env} {script : Script} {state : RunState} {world : World}
    {message : String} (numbered : Numbered world.target.registry)
    (undo : ∀ id, Succeeds (env.undo id)) (idle : state.patchIds = [])
    (failed : (runEnable env script state world).2.2 = .error message) :
    Restored (taken env script state.symbols world) world
        (runEnable env script state world).1 ↔
      Undoes (TakesBack env script.name world) env script state.symbols world := by
  have result := runEnable_result env script state world
  generalize runEnable env script state world = outcome at result failed
  obtain ⟨takes, allocations⟩ := compile_taken env script state.symbols world
  cases result with
  | refused after message compiles =>
      rw [compiles] at takes
      rw [undoes_refused_iff compiles]
      constructor
      · exact Restored.blocks
      · intro blocks
        have nothing : taken env script state.symbols world = [] := by
          rw [taken, compiles, blocks, List.drop_length]
        exact ⟨takes.memory, blocks, by rw [takes.registry], takes.symbols⟩
  | rolledBack after compiled target ids message compiles wrote =>
      obtain ⟨known, pieces, reads, cut, blocks, same⟩ := compile_stretches compiles
      obtain ⟨rfl, regions⟩ := readLines_taken reads compiles
      rw [undoes_compiled_iff compiles reads cut]
      rw [compiles] at takes allocations
      have addresses := allocations compiled rfl
      have numberedAfter : Numbered known.world.target.registry := takes.registry ▸ numbered
      obtain ⟨undone, removed, records, memory⟩ := @removeAll_writeBlocks env script.name 0
        known.world.target env undo compiled.result.blocks numberedAfter
      rw [wrote] at removed
      simp only [idle, List.nil_append, removed, addresses]
      have freed := freeAll_blocks_iff
        (show ({ known.world with target := undone } : World).blocks = _ from takes.blocks)
        takes.fresh env
      have held (place : Nat) :
          (∀ region ∈ taken env script state.symbols world, ¬region.Holds place) ↔
            ∀ allocation ∈ known.result.allocations, ¬allocation.region.Holds place := by
        rw [regions, List.forall_mem_map]
      have every : (∀ region ∈ taken env script state.symbols world,
          env.freed region.base = none) ↔
            ∀ allocation ∈ known.result.allocations, env.freed allocation.address = none := by
        rw [regions, List.forall_mem_map]
        rfl
      rw [blocks] at memory
      constructor
      · intro restored
        refine ⟨every.mp (freed.mp restored.blocks), ?_⟩
        intro place byte outside left
        have same := restored.memory place ((held place).mpr outside)
        rw [freeAll_eq] at same
        dsimp only at same
        rw [memory, putBack_apply, left, Option.getD_some] at same
        exact same.symm
      · intro gives
        refine ⟨?_, freed.mpr (every.mpr gives.freed), ?_, ?_⟩
        · intro place outside
          rw [freeAll_eq]
          dsimp only
          rw [memory, putBack_apply]
          cases behind : leftBehind (written env script.name 0
              (blocksOf known.allocatedRanges pieces) known.world.target) place with
          | none => exact takes.memory place outside
          | some byte =>
              exact (gives.kept place byte ((held place).mp outside) behind).symm
        · rw [freeAll_eq]
          exact records.trans (by rw [takes.registry])
        · rw [freeAll_eq]
          exact takes.symbols
  | enabled => cases failed

theorem numbered_of_tidy {r : Registry} (tidy : Tidy r) : Numbered r :=
  fun patch member => (tidy.numbered patch member).2

/-- Turning a script on runs it, unless it is not there or on already. -/
theorem setEnabled_error {env : Env} {id : Nat} {world : World} {s : Scripts} {message : String}
    (failed : (setEnabled env id true world s).2.2 = .error message) :
    (s.find id = none ∧ (setEnabled env id true world s).1 = world) ∨
      ∃ script, s.find id = some script ∧ script.enabled = false ∧
        (setEnabled env id true world s).1 = (runEnable env script (s.stored id) world).1 ∧
        (runEnable env script (s.stored id) world).2.2 = .error message := by
  cases found : s.find id with
  | none => exact Or.inl ⟨rfl, by rw [setEnabled_missing found]⟩
  | some script =>
      cases off : script.enabled with
      | true =>
          rw [← off, setEnabled_already found] at failed
          cases failed
      | false =>
          rw [setEnabled_runs found (off ▸ Bool.false_ne_true)] at failed ⊢
          exact Or.inr ⟨script, rfl, off, rfl, failed⟩

/-- An enable that fails leaves everything as it was exactly when its section undoes: whatever
scripts there are and whatever was done with them before. Enough of what compiles is that its
stretches stay in the allocations they start in. -/
theorem setEnabled_restores_iff {s : Scripts} (reached : Reached step (fun _ _ => True) {} s)
    {env : Env} {id : Nat} {world : World} {message : String}
    (tidy : Tidy world.target.registry) (undo : ∀ patch, Succeeds (env.undo patch))
    (failed : (setEnabled env id true world s).2.2 = .error message) :
    (s.find id = none ∧ (setEnabled env id true world s).1 = world) ∨
      ∃ script, s.find id = some script ∧
        (Restored (taken env script (s.stored id).symbols world) world
            (setEnabled env id true world s).1 ↔
          Undoes (TakesBack env script.name world) env script (s.stored id).symbols world) ∧
        (Undoes (Stays env) env script (s.stored id).symbols world →
          Undoes (TakesBack env script.name world) env script (s.stored id).symbols world) := by
  rcases setEnabled_error failed with missing | ⟨script, found, off, ran, runFailed⟩
  · exact Or.inl missing
  · refine Or.inr ⟨script, found, ?_, fun undoes => ⟨undoes.refused, ?_⟩⟩
    · obtain ⟨member, rfl⟩ := find_eq_some found
      have owns := (ownsNothing_reached reached).idle script member off
      rw [ran]
      exact runEnable_restores_iff (numbered_of_tidy tidy) undo owns.1 runFailed
    · intro compiled known pieces ok reads cut
      exact (undoes.written compiled known pieces ok reads cut).takesBack script.name world

/-- One script in a new list. -/
def oneScript (source : String) : Scripts := step {} (.add [] source.toList)

theorem oneScript_reached (source : String) :
    Reached step (fun _ _ => True) {} (oneScript source) :=
  .next (Call.add [] source.toList) .start trivial

/-- A target whose pages cannot be written. -/
def refusing : Env := { bench with block := fun _ => { write := some ⟨"Access is denied.", 5⟩ } }

/-- A target that takes bytes into fresh pages, and no patch. -/
def guarded : Env :=
  { bench with
    block := fun index => if index = 0 then {} else { write := some ⟨"Access is denied.", 5⟩ } }

/-- A byte into an allocation, and a patch over the target's code. -/
def caveSource : String := "alloc(m, 100)\nm:\ndb 1\n20000000:\nnop"

def caveScript : Script := ⟨1, "Script 1".toList, caveSource.toList, false⟩

/-- The allocations of a section and its stretches, where it compiles. -/
def laidBy (env : Env) (script : Script) (stored : SymbolMap) (world : World) :
    Option (List (Nat × Nat) × List Allocation × List Stretch) :=
  match (readLines env true (enableLines script) (enableStart stored world)).2,
    (compile env true script.source true stored world).2 with
  | .ok known, .ok compiled =>
      (cutAtOrigins (known.section env) (OrderedMap.find caseLess · compiled.layout)
        (enableLines script)).map fun pieces =>
          (known.allocatedRanges, known.result.allocations, pieces)
  | _, _ => none

theorem laidBy_eq {env : Env} {script : Script} {stored : SymbolMap} {world : World} {known : Known}
    {compiled : Compiled} {pieces : List Stretch}
    (compiles : (compile env true script.source true stored world).2 = .ok compiled)
    (reads : (readLines env true (enableLines script) (enableStart stored world)).2 = .ok known)
    (cut : cutAtOrigins (known.section env) (OrderedMap.find caseLess · compiled.layout)
      (enableLines script) = some pieces) :
    laidBy env script stored world =
      some (known.allocatedRanges, known.result.allocations, pieces) := by
  simp only [laidBy, compiles, reads, cut, Option.map_some]

theorem guarded_restores :
    (setEnabled guarded 1 true bareWorld (oneScript caveSource)).2.2.isOk = false ∧
      taken guarded caveScript [] bareWorld = [⟨0x10000, 0x1000⟩] ∧
      Restored [⟨0x10000, 0x1000⟩] bareWorld
        (setEnabled guarded 1 true bareWorld (oneScript caveSource)).1 := by
  have fails : (setEnabled guarded 1 true bareWorld (oneScript caveSource)).2.2.isOk = false := by
    decide
  have took : taken guarded caveScript [] bareWorld = [⟨0x10000, 0x1000⟩] := by decide
  refine ⟨fails, took, ?_⟩
  rcases outcome : (setEnabled guarded 1 true bareWorld (oneScript caveSource)).2.2 with
    message | reply
  · rcases setEnabled_restores_iff (oneScript_reached _) (settled_start _).tidy
        (fun _ => ⟨rfl, rfl⟩) outcome with ⟨missing, _⟩ | ⟨script, found, restores, enough⟩
    · contradiction
    · obtain rfl : caveScript = script := Option.some.inj found
      have stored : ((oneScript caveSource).stored 1).symbols = [] := rfl
      rw [stored] at restores enough
      rw [← took]
      refine restores.mpr (enough ⟨?_, ?_⟩)
      · intro problem refused
        have compiles : (compile guarded true caveScript.source true [] bareWorld).2.isOk =
            true := by decide
        rw [refused] at compiles
        contradiction
      · intro compiled known pieces ok reads cut
        have laid : laidBy guarded caveScript [] bareWorld =
            some ([(0x10000, 0x10100)], [⟨['m'], 0x10000, 0x100⟩],
              [⟨0x10000, [1]⟩, ⟨0x20000000, [0x90]⟩]) := by decide
        rw [laidBy_eq ok reads cut, Option.some.injEq, Prod.mk.injEq, Prod.mk.injEq] at laid
        obtain ⟨ranges, allocations, rfl⟩ := laid
        refine ⟨fun _ _ => rfl, ?_, fun _ _ _ _ => rfl⟩
        rw [ranges, allocations]
        decide
  · rw [outcome] at fails
    contradiction

/-- The block of an `alloc` that worked is not given back when a later line is wrong. -/
def leakingScript : String := "alloc(m, 100)\nlabel(never)"

theorem leakingScript_leaks :
    (setEnabled bench 1 true bareWorld (oneScript leakingScript)).2.2.isOk = false ∧
      bareWorld.blocks = [] ∧
      (setEnabled bench 1 true bareWorld (oneScript leakingScript)).1.blocks =
        [⟨0x10000, 0x1000⟩] := by
  decide

end PointerLab.AutoAssembler
