import PointerLab.AutoAssemblerRoundTrip

set_option autoImplicit false

/- Which records and blocks a run adds to the target and takes from it, and which of them
the state it leaves can name. -/
namespace PointerLab.AutoAssembler

open Domain
open PatchRegistry (Patched Patch Succeeds)

def World.recordIds (world : World) : List Nat := world.target.registry.patches.map Patch.id

def World.blockBases (world : World) : List Nat := world.blocks.map (·.base)

theorem removeAll_cons (env : Env) (id : Nat) (ids : List Nat) (target : Patched) :
    (removeAll env (id :: ids) target).1 =
      (removeAll env ids (PatchRegistry.remove (env.undo id) id target).1).1 := by
  rw [removeAll]
  rcases PatchRegistry.remove (env.undo id) id target with ⟨after, failure | reply⟩ <;> rfl

/-- Taking patches off adds no record, and those taken off for good have none. -/
theorem removeAll_ids (env : Env) (ids : List Nat) (target : Patched) :
    (removeAll env ids target).1.registry.patches.map Patch.id ⊆
        target.registry.patches.map Patch.id ∧
      ∀ id ∈ ids, Succeeds (env.undo id) →
        id ∉ (removeAll env ids target).1.registry.patches.map Patch.id := by
  induction ids generalizing target with
  | nil => exact ⟨List.Subset.refl _, nofun⟩
  | cons id rest ih =>
      have fewer := PatchRegistry.remove_ids (env.undo id) id target
      obtain ⟨subset, gone⟩ := ih (PatchRegistry.remove (env.undo id) id target).1
      rw [removeAll_cons]
      refine ⟨List.Subset.trans subset fewer, ?_⟩
      intro other member succeeds
      rcases List.mem_cons.mp member with rfl | inRest
      · exact fun still => PatchRegistry.remove_succeeds succeeds other target (subset still)
      · exact gone other inRest succeeds

/-- After an enable that succeeds, what is new in the target is in the state. -/
theorem runEnable_holds {env : Env} {script : Script} {state : RunState} {world : World}
    (ok : (runEnable env script state world).2.2 = .ok ()) :
    (∀ id ∈ (runEnable env script state world).1.recordIds, id ∈ world.recordIds ∨
        id ∈ (runEnable env script state world).2.1.patchIds) ∧
      ∀ base ∈ (runEnable env script state world).1.blockBases, base ∈ world.blockBases ∨
        base ∈ (runEnable env script state world).2.1.allocations.map (·.address) := by
  have result := runEnable_result env script state world
  generalize runEnable env script state world = outcome at result ok
  obtain ⟨takes, allocations⟩ := compile_taken env script state.symbols world
  cases result with
  | refused => cases ok
  | rolledBack => cases ok
  | enabled after compiled target ids compiles wrote =>
      rw [compiles] at takes allocations
      obtain ⟨records, patches, added, _⟩ := @writeBlocks_records env script.name 0 after.target
        compiled.result.blocks
      rw [wrote] at patches added
      constructor
      · intro id member
        change id ∈ target.registry.patches.map Patch.id at member
        rw [patches, List.map_append, List.mem_append, added, takes.registry] at member
        rcases member with old | new
        · exact Or.inl old
        · exact Or.inr (List.mem_append_right _ new)
      · intro base member
        change base ∈ after.blocks.map (·.base) at member
        rw [takes.blocks, List.map_append, List.mem_append] at member
        rcases member with old | new
        · exact Or.inl old
        · refine Or.inr ?_
          show base ∈ compiled.result.allocations.map (·.address)
          rw [allocations compiled rfl]
          exact new

/-- What an enable has to meet to leave nothing when it fails: a section that does not
compile has allocated nothing, and where a block cannot be written the patches come off and
the allocated blocks can be freed. -/
def GivesBack (env : Env) (script : Script) (stored : SymbolMap) (world : World) : Prop :=
  match compile env true script.source true stored world with
  | (_, .error _) => taken env script stored world = []
  | (after, .ok compiled) =>
      (writeBlocks env script.name 0 compiled.result.blocks after.target).2.2.isOk = true ∨
        ((∀ id ∈ (writeBlocks env script.name 0 compiled.result.blocks after.target).2.1,
            Succeeds (env.undo id)) ∧
          ∀ region ∈ taken env script stored world, env.freed region.base = none)

instance (access : TargetSession.Access) : Decidable (Succeeds access) :=
  inferInstanceAs (Decidable (_ ∧ _))

instance (env : Env) (script : Script) (stored : SymbolMap) (world : World) :
    Decidable (GivesBack env script stored world) :=
  match compiles : compile env true script.source true stored world with
  | (_, .error _) =>
      decidable_of_iff (taken env script stored world = []) (by simp only [GivesBack, compiles])
  | (after, .ok compiled) =>
      decidable_of_iff
        ((writeBlocks env script.name 0 compiled.result.blocks after.target).2.2.isOk = true ∨
          ((∀ id ∈ (writeBlocks env script.name 0 compiled.result.blocks after.target).2.1,
              Succeeds (env.undo id)) ∧
            ∀ region ∈ taken env script stored world, env.freed region.base = none))
        (by simp only [GivesBack, compiles])

theorem runEnable_gone {env : Env} {script : Script} {state : RunState} {world : World}
    {message : String} (idle : state.patchIds = [])
    (givesBack : GivesBack env script state.symbols world)
    (failed : (runEnable env script state world).2.2 = .error message) :
    (runEnable env script state world).1.recordIds ⊆ world.recordIds ∧
      (runEnable env script state world).1.blockBases ⊆ world.blockBases := by
  have result := runEnable_result env script state world
  generalize runEnable env script state world = outcome at result failed
  obtain ⟨takes, allocations⟩ := compile_taken env script state.symbols world
  unfold GivesBack at givesBack
  cases result with
  | refused after message compiles =>
      rw [compiles] at takes givesBack
      constructor
      · intro id member
        rwa [World.recordIds, takes.registry] at member
      · intro base member
        rwa [World.blockBases, takes.blocks, givesBack, List.append_nil] at member
  | rolledBack after compiled target ids message compiles wrote =>
      rw [compiles] at takes allocations givesBack
      dsimp only at givesBack
      rw [wrote] at givesBack
      obtain ⟨undo, frees⟩ := givesBack.resolve_left Bool.false_ne_true
      obtain ⟨records, patches, added, _⟩ := @writeBlocks_records env script.name 0 after.target
        compiled.result.blocks
      rw [wrote] at patches added
      obtain ⟨subset, gone⟩ := removeAll_ids env (state.patchIds ++ ids).reverse target
      rw [freeAll_eq, allocations compiled rfl]
      constructor
      · intro id member
        change id ∈ (removeAll env (state.patchIds ++ ids).reverse target).1.registry.patches.map
          Patch.id at member
        have known := subset member
        rw [patches, List.map_append, List.mem_append, added, takes.registry] at known
        rcases known with old | new
        · exact old
        · refine absurd member (gone id ?_ (undo id new))
          rw [List.mem_reverse, idle, List.nil_append]
          exact new
      · intro base member
        obtain ⟨block, stays, rfl⟩ := List.mem_map.mp member
        obtain ⟨inAfter, kept⟩ := List.mem_filter.mp stays
        change block ∈ after.blocks at inAfter
        rw [takes.blocks, List.mem_append] at inAfter
        rcases inAfter with old | new
        · exact List.mem_map_of_mem old
        · rw [Bool.not_eq_true', List.any_eq_false] at kept
          refine absurd ?_ (kept block.base (List.mem_map_of_mem new))
          simp [frees block new]
  | enabled => cases failed

/-- The addresses that the [DISABLE] section of a script gives back, none if it does not
compile. -/
def givenBack (env : Env) (script : Script) (state : RunState) (world : World) : List Nat :=
  match compile env true script.source false state.symbols (unpatched env state world) with
  | (_, .error _) => []
  | (_, .ok compiled) => freedAddresses state.allocations compiled.result.deallocations

/-- What a disable has to meet to leave nothing of the script: its patches come off, and its
section gives every block back. -/
structure TakesAll (env : Env) (script : Script) (state : RunState) (world : World) : Prop where
  patches : ∀ id ∈ state.patchIds, Succeeds (env.undo id)
  blocks : ∀ allocation ∈ state.allocations, env.freed allocation.address = none ∧
    allocation.address ∈ givenBack env script state world

instance (env : Env) (script : Script) (state : RunState) (world : World) :
    Decidable (TakesAll env script state world) :=
  decidable_of_iff ((∀ id ∈ state.patchIds, Succeeds (env.undo id)) ∧
      ∀ allocation ∈ state.allocations, env.freed allocation.address = none ∧
        allocation.address ∈ givenBack env script state world)
    ⟨fun both => ⟨both.1, both.2⟩, fun both => ⟨both.patches, both.blocks⟩⟩

theorem restoreBlocks_registry (env : Env) (index : Nat) (blocks : List Block) (target : Patched) :
    (restoreBlocks env index blocks target).1.registry = target.registry := by
  induction blocks generalizing index target with
  | nil => rfl
  | cons block rest ih =>
      rw [restoreBlocks]
      rcases TargetSession.writeBytes (env.block index) block.address block.bytes target.memory with
        ⟨memory, failure | reply⟩ <;> exact ih _ _

/-- A disable that takes all leaves no record and no block that the state could name. -/
theorem runDisable_gone {env : Env} {script : Script} {state : RunState} {world : World}
    (takesAll : TakesAll env script state world) :
    (∀ id ∈ (runDisable env script state world).1.recordIds, id ∈ world.recordIds ∧
        id ∉ state.patchIds) ∧
      ∀ base ∈ (runDisable env script state world).1.blockBases, base ∈ world.blockBases →
        base ∉ state.allocations.map (·.address) := by
  obtain ⟨subset, gone⟩ := removeAll_ids env state.patchIds.reverse world.target
  obtain ⟨regions, takes, _⟩ := compile_takes env script.source false state.symbols
    (unpatched env state world)
  have blocks := takesAll.blocks
  unfold givenBack at blocks
  have offRecords : ∀ id ∈ (removeAll env state.patchIds.reverse world.target).1.registry.patches.map
      Patch.id, id ∈ world.recordIds ∧ id ∉ state.patchIds := by
    intro id member
    refine ⟨subset member, ?_⟩
    intro own
    exact gone id (List.mem_reverse.mpr own) (takesAll.patches id own) member
  rcases taken_ : removeAll env state.patchIds.reverse world.target with ⟨target, problems⟩
  rw [taken_] at offRecords
  have met : unpatched env state world = { world with target } := by rw [unpatched, taken_]
  rw [met] at takes blocks
  simp only [runDisable, taken_]
  rcases compiles : compile env true script.source false state.symbols { world with target } with
    ⟨after, message | compiled⟩
  · rw [compiles] at takes blocks
    constructor
    · intro id member
      change id ∈ after.target.registry.patches.map Patch.id at member
      rw [takes.registry] at member
      exact offRecords id member
    · intro base _ _ own
      obtain ⟨allocation, member, _⟩ := List.mem_map.mp own
      exact absurd (blocks allocation member).2 List.not_mem_nil
  · rw [compiles] at takes blocks
    simp only [carryOut, deallocate_world, freeAll_eq]
    constructor
    · intro id member
      change id ∈ (restoreBlocks env 0 compiled.result.blocks after.target).1.registry.patches.map
        Patch.id at member
      rw [restoreBlocks_registry, takes.registry] at member
      exact offRecords id member
    · intro base member _ own
      obtain ⟨block, stays, rfl⟩ := List.mem_map.mp member
      have kept := (List.mem_filter.mp stays).2
      obtain ⟨allocation, inState, same⟩ := List.mem_map.mp own
      obtain ⟨frees, given⟩ := blocks allocation inState
      rw [Bool.not_eq_true', List.any_eq_false] at kept
      refine absurd ?_ (kept allocation.address given)
      rw [beq_iff_eq.mpr same, frees]
      rfl

end PointerLab.AutoAssembler
