import PointerLab.AutoAssemblerGenuine
import PointerLab.AutoAssemblerRollback

set_option autoImplicit false

/- Where an enable that succeeds has changed the target: which of its bytes show, and which
of them something can undo. -/
namespace PointerLab.AutoAssembler

open Domain Overlay Runs Writes

/-- The records that one world has more than another. -/
def addedPatches (before after : World) : List PatchRegistry.Patch :=
  after.target.registry.patches.drop before.target.registry.patches.length

/-- A write is a block, padded with nops where it lies over the target's code. -/
def Pads (block : Block) (write : Write UInt8) : Prop :=
  write.address = block.address ∧ write.recorded = !block.intoAllocation ∧
    ∃ padding, write.cells = block.bytes ++ List.replicate padding 0x90 ∧
      (block.intoAllocation = true → padding = 0)

/-- Every byte of every write is in memory. -/
def Shown (writes : List (Write UInt8)) (memory : Nat → UInt8) : Prop :=
  ∀ write ∈ writes, ∀ place, write.Covers place → write.at? place = some (memory place)

/-- What a run changed lies in a region it allocated or under a record it added. -/
def Contained (regions : List Region) (before after : World) : Prop :=
  ∀ place, after.target.memory place ≠ before.target.memory place →
    (∃ region ∈ regions, region.Holds place) ∨
      ∃ patch ∈ addedPatches before after,
        patch.address ≤ place ∧ place < patch.address + patch.patchedBytes.length

/-- The writes of blocks where none fails. -/
def laid (env : Env) : (Nat → UInt8) → List Block → List (Write UInt8)
  | _, [] => []
  | memory, block :: rest =>
      let write := asWrite env block memory
      write :: laid env (overlay memory write.address write.cells) rest

/-- No two of the writes overlap, and one that starts in an allocation ends in its pages. -/
structure KeptApart (regions : List Region) (writes : List (Write UInt8)) : Prop where
  apart : writes.Pairwise fun first second =>
    Overlay.Apart first.address first.cells.length second.address second.cells.length
  inside : ∀ write ∈ writes, write.recorded = false →
    ∃ region ∈ regions, region.base ≤ write.address ∧
      write.address + write.cells.length ≤ region.base + region.size

/-- The writes have the same bytes where they meet, and one without a record leaves the
regions and the records only where it writes what was there. -/
def Separate (regions : List Region) (before : Nat → UInt8) (writes : List (Write UInt8)) : Prop :=
  Compatible writes ∧
    ∀ write ∈ writes, write.recorded = false → ∀ place, write.Covers place →
      (∃ region ∈ regions, region.Holds place) ∨
        (∃ other ∈ writes, other.recorded = true ∧ other.Covers place) ∨
          write.at? place = some (before place)

theorem pads_padToInstructionBoundary (env : Env) (memory : Nat → UInt8) (address : Nat)
    (patch : List UInt8) :
    ∃ padding, padToInstructionBoundary env memory address patch =
      patch ++ List.replicate padding 0x90 := by
  unfold padToInstructionBoundary
  split
  · exact ⟨0, (List.append_nil _).symm⟩
  · dsimp only
    split
    · exact ⟨0, (List.append_nil _).symm⟩
    · exact ⟨_, rfl⟩

theorem pads_asWrite (env : Env) (block : Block) (memory : Nat → UInt8) :
    Pads block (asWrite env block memory) := by
  refine ⟨rfl, rfl, ?_⟩
  cases into : block.intoAllocation with
  | true => exact ⟨0, by simp [asWrite, into], fun _ => rfl⟩
  | false =>
      obtain ⟨padding, padded⟩ :=
        pads_padToInstructionBoundary env memory block.address block.bytes
      exact ⟨padding, by simp [asWrite, into, padded],
        fun impossible => absurd impossible Bool.false_ne_true⟩

theorem laid_pads (env : Env) (memory : Nat → UInt8) (blocks : List Block) :
    List.Forall₂ Pads blocks (laid env memory blocks) := by
  induction blocks generalizing memory with
  | nil => exact .nil
  | cons block rest ih => exact .cons (pads_asWrite env block memory) (ih _)

/-- When no block fails, each is written. -/
theorem written_eq_laid {env : Env} {name : Text} {index : Nat} {blocks : List Block}
    {target : PatchRegistry.Patched}
    (ok : (writeBlocks env name index blocks target).2.2 = .ok ()) :
    written env name index blocks target = laid env target.memory blocks := by
  induction blocks generalizing index target with
  | nil => rfl
  | cons block rest ih =>
      rcases step : writeBlock env name index block target with ⟨after, message | added⟩
      · rw [(writeBlocks_cons_error step).1] at ok
        cases ok
      · obtain ⟨result, writes⟩ := @writeBlocks_cons_ok _ _ _ _ _ _ _ rest step
        rw [result] at ok
        rw [writes, laid, ih ok, (writeBlock_ok step).1]
        rfl

/-- Writes that keep apart have nothing to agree on. -/
theorem KeptApart.separate {regions : List Region} {writes : List (Write UInt8)}
    (kept : KeptApart regions writes) (before : Nat → UInt8) : Separate regions before writes := by
  constructor
  · intro first inFirst second inSecond place firstCovers secondCovers
    by_cases same : first = second
    · rw [same]
    · have symm : Std.Symm fun first second : Write UInt8 =>
          Overlay.Apart first.address first.cells.length second.address second.cells.length :=
        ⟨fun _ _ => Overlay.Apart.symm⟩
      have apart := kept.apart.forall inFirst inSecond same
      unfold Write.Covers at firstCovers secondCovers
      unfold Overlay.Apart at apart
      omega
  · intro write member bare place covers
    obtain ⟨region, inRegions, low, high⟩ := kept.inside write member bare
    unfold Write.Covers at covers
    exact .inl ⟨region, inRegions, by omega, by omega⟩

/-- What a successful run of a script leaves: its stretches over the target, those in fresh pages
without a record. -/
theorem runEnable_ok {env : Env} {script : Script} {state : RunState} {world : World}
    (ok : (runEnable env script state world).2.2 = .ok ()) :
    ∃ known compiled pieces,
      readLines env true (enableLines script) (enableStart state.symbols world) =
        (known.world, .ok known) ∧
      (compile env true script.source true state.symbols world).2 = .ok compiled ∧
      cutAtOrigins (known.section env) (OrderedMap.find caseLess · compiled.layout)
        (enableLines script) = some pieces ∧
      Takes world known.world (known.result.allocations.map Allocation.region) ∧
      (runEnable env script state world).1.target.memory = perform known.world.target.memory
        (laid env known.world.target.memory (blocksOf known.allocatedRanges pieces)) ∧
      (addedPatches world (runEnable env script state world).1).map
          (fun patch => (⟨patch.address, patch.patchedBytes, true⟩ : Write UInt8)) =
        (laid env known.world.target.memory (blocksOf known.allocatedRanges pieces)).filter
          (·.recorded) := by
  have result := runEnable_result env script state world
  generalize runEnable env script state world = outcome at result ok
  cases result with
  | refused => cases ok
  | rolledBack => cases ok
  | enabled mid compiled target ids compiles wrote =>
      obtain ⟨known, pieces, reads, cut, blocks, _⟩ := compile_stretches compiles
      obtain ⟨rfl, regions⟩ := readLines_taken reads compiles
      have takes := (compile_taken env script state.symbols world).1
      rw [compiles, regions] at takes
      obtain ⟨records, patches, _, recorded⟩ := @writeBlocks_records env script.name 0
        known.world.target compiled.result.blocks
      have memory := @writeBlocks_memory env script.name 0 known.world.target compiled.result.blocks
      have written_ := @written_eq_laid env script.name 0 compiled.result.blocks known.world.target
        (by rw [wrote])
      rw [written_, blocks] at memory recorded
      rw [blocks] at wrote
      rw [wrote] at memory
      rw [blocks, wrote] at patches
      refine ⟨known, compiled, pieces, reads, by rw [compiles], cut, takes, memory, ?_⟩
      rw [← recorded, addedPatches, ← takes.registry]
      show (target.registry.patches.drop known.world.target.registry.patches.length).map _ = _
      rw [patches, List.drop_left]

/-- Writes show and stay within what can be undone exactly when they are separate. -/
theorem shown_contained_iff {regions : List Region} {before after : World} {mid : Nat → UInt8}
    {writes : List (Write UInt8)} (memory : after.target.memory = perform mid writes)
    (same : ∀ place, (∀ region ∈ regions, ¬region.Holds place) →
      mid place = before.target.memory place)
    (records : (addedPatches before after).map
        (fun patch => (⟨patch.address, patch.patchedBytes, true⟩ : Write UInt8)) =
      writes.filter (·.recorded)) :
    (Shown writes after.target.memory ∧ Contained regions before after) ↔
      Separate regions before.target.memory writes := by
  have covered (place : Nat) : (∃ patch ∈ addedPatches before after,
        patch.address ≤ place ∧ place < patch.address + patch.patchedBytes.length) ↔
      ∃ write ∈ writes, write.recorded = true ∧ write.Covers place := by
    constructor
    · rintro ⟨patch, member, inside⟩
      have inWrites := List.mem_map_of_mem
        (f := fun patch => (⟨patch.address, patch.patchedBytes, true⟩ : Write UInt8)) member
      rw [records, List.mem_filter] at inWrites
      exact ⟨_, inWrites.1, rfl, inside⟩
    · rintro ⟨write, member, recorded, covers⟩
      have filtered : write ∈ writes.filter (·.recorded) := List.mem_filter.mpr ⟨member, recorded⟩
      rw [← records] at filtered
      obtain ⟨patch, inAdded, rfl⟩ := List.mem_map.mp filtered
      exact ⟨patch, inAdded, covers⟩
  have showing : Shown writes after.target.memory ↔ Compatible writes := by
    rw [memory]
    exact all_show_iff mid writes
  rw [showing]
  refine and_congr_right fun compatible => ⟨fun contained => ?_, fun bounded => ?_⟩
  · intro write member _ place covers
    rw [showing.mpr compatible write member place covers]
    by_cases kept : after.target.memory place = before.target.memory place
    · exact Or.inr (Or.inr (by rw [kept]))
    · rcases contained place kept with inRegion | inRecord
      · exact Or.inl inRegion
      · exact Or.inr (Or.inl ((covered place).mp inRecord))
  · intro place changed
    by_cases inRegion : ∃ region ∈ regions, region.Holds place
    · exact Or.inl inRegion
    · refine Or.inr ((covered place).mpr ?_)
      have outside : ∀ region ∈ regions, ¬region.Holds place :=
        fun region member holds => inRegion ⟨region, member, holds⟩
      cases last : lastWrite writes place with
      | none =>
          rw [memory, perform_apply, last, Option.getD_none] at changed
          exact absurd (same place outside) changed
      | some byte =>
          obtain ⟨write, member, here⟩ := exists_of_lastWrite last
          have covers := Write.covers_of_at? here
          cases recorded : write.recorded with
          | true => exact ⟨write, member, recorded, covers⟩
          | false =>
              rcases bounded write member recorded place covers with inSome | inOther | unchanged
              · exact absurd inSome inRegion
              · exact inOther
              · rw [showing.mpr compatible write member place covers] at unchanged
                exact absurd (Option.some.inj unchanged) changed

/-- After an enable that succeeds the target is what it was with the fresh pages and the stretches
of its section laid over it. Every byte of them shows, and nothing changed outside of what a disable
can undo, exactly when they are separate; they are when no two of them overlap and each that starts
in an allocation ends in its pages. -/
theorem setEnabled_footprint_iff {s : Scripts} {env : Env} {id : Nat} {world : World}
    {script : Script} (found : s.find id = some script) (off : script.enabled = false)
    (ok : (setEnabled env id true world s).2.2 = .ok ()) :
    ∃ known compiled pieces,
      readLines env true (enableLines script) (enableStart (s.stored id).symbols world) =
        (known.world, .ok known) ∧
      (compile env true script.source true (s.stored id).symbols world).2 = .ok compiled ∧
      cutAtOrigins (known.section env) (OrderedMap.find caseLess · compiled.layout)
        (enableLines script) = some pieces ∧
      let blocks := blocksOf known.allocatedRanges pieces
      let writes := laid env known.world.target.memory blocks
      let regions := known.result.allocations.map Allocation.region
      let after := (setEnabled env id true world s).1
      List.Forall₂ Pads blocks writes ∧
        after.target.memory = perform known.world.target.memory writes ∧
        (∀ place, (∀ region ∈ regions, ¬region.Holds place) →
          known.world.target.memory place = world.target.memory place) ∧
        ((Shown writes after.target.memory ∧ Contained regions world after) ↔
          Separate regions world.target.memory writes) ∧
        (KeptApart regions writes → Separate regions world.target.memory writes) := by
  rw [setEnabled_runs found (off ▸ Bool.false_ne_true)] at ok ⊢
  obtain ⟨known, compiled, pieces, reads, compiles, cut, takes, memory, records⟩ := runEnable_ok ok
  exact ⟨known, compiled, pieces, reads, compiles, cut, laid_pads env _ _, memory, takes.memory,
    shown_contained_iff memory takes.memory records, fun kept => kept.separate _⟩

theorem caveScript_contained :
    Shown [⟨0x10000, [1], false⟩, ⟨0x20000000, [0x90], true⟩]
        (setEnabled bench 1 true bareWorld (oneScript caveSource)).1.target.memory ∧
      Contained [⟨0x10000, 0x1000⟩] bareWorld
        (setEnabled bench 1 true bareWorld (oneScript caveSource)).1 := by
  obtain ⟨known, compiled, pieces, reads, compiles, cut, _, _, _, exact_, enough⟩ :=
    @setEnabled_footprint_iff (oneScript caveSource) bench 1 bareWorld caveScript rfl rfl rfl
  have stored : ((oneScript caveSource).stored 1).symbols = [] := rfl
  rw [stored] at reads compiles
  have pieces_ : laidBy bench caveScript [] bareWorld =
      some ([(0x10000, 0x10100)], [⟨['m'], 0x10000, 0x100⟩],
        [⟨0x10000, [1]⟩, ⟨0x20000000, [0x90]⟩]) := by decide
  rw [laidBy_eq compiles (by rw [reads]) cut, Option.some.injEq, Prod.mk.injEq,
    Prod.mk.injEq] at pieces_
  obtain ⟨ranges, allocations, rfl⟩ := pieces_
  have blocks : blocksOf known.allocatedRanges [⟨0x10000, [1]⟩, ⟨0x20000000, [0x90]⟩] =
      [⟨0x10000, [1], true⟩, ⟨0x20000000, [0x90], false⟩] := by
    rw [ranges]
    decide
  have writes : laid bench known.world.target.memory
      [⟨0x10000, [1], true⟩, ⟨0x20000000, [0x90], false⟩] =
        [⟨0x10000, [1], false⟩, ⟨0x20000000, [0x90], true⟩] := by
    rw [← show (readLines bench true (enableLines caveScript) (enableStart [] bareWorld)).1 =
      known.world by rw [reads]]
    decide
  have regions : known.result.allocations.map Allocation.region = [⟨0x10000, 0x1000⟩] := by
    rw [allocations]
    rfl
  rw [blocks, writes, regions] at exact_ enough
  refine exact_.mpr (enough ⟨?_, ?_⟩)
  · simp [Overlay.Apart]
  · simp

/-- Two blocks at one address, and a block that runs past the pages it starts in. -/
def crossedScripts : String × String :=
  ("alloc(m, 100)\nm:\ndb 1\nm:\ndb 2", "alloc(m, 1000)\n10FFF:\ndw 0102")

/-- The first script's first byte is gone, and the second one's last lies outside of the
pages it allocated, under no record. -/
theorem crossedScripts_torn :
    (setEnabled bench 1 true bareWorld (oneScript crossedScripts.1)).2.2.isOk = true ∧
      benchBlocks crossedScripts.1.toList = [⟨0x10000, [1], true⟩, ⟨0x10000, [2], true⟩] ∧
      (setEnabled bench 1 true bareWorld (oneScript crossedScripts.1)).1.target.memory 0x10000 = 2 ∧
      (setEnabled bench 1 true bareWorld (oneScript crossedScripts.2)).2.2.isOk = true ∧
      (setEnabled bench 1 true bareWorld (oneScript crossedScripts.2)).1.blocks =
        [⟨0x10000, 0x1000⟩] ∧
      (setEnabled bench 1 true bareWorld (oneScript crossedScripts.2)).1.target.registry.patches =
        [] ∧
      bareWorld.target.memory 0x11000 = 0x90 ∧
      (setEnabled bench 1 true bareWorld (oneScript crossedScripts.2)).1.target.memory 0x11000 = 1 := by
  decide

end PointerLab.AutoAssembler
