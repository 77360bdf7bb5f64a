import PointerLab.AutoAssemblerRollback

set_option autoImplicit false

/- What enabling a script depends on: two scripts of one source, enabled on one target,
whatever was done with each of them before. -/
namespace PointerLab.AutoAssembler

open Domain OrderedMap Runs Std
open PatchRegistry (Patch Patched Registry overlaps reserve markEnabled lookupToggle)

/-- A record without what it says it is for. -/
def unnamedPatch (patch : Patch) : Patch := { patch with description := "" }

/-- Two targets that differ at most in what their records say they are for. -/
structure Alike (first second : Patched) : Prop where
  memory : first.memory = second.memory
  patches : first.registry.patches.map unnamedPatch = second.registry.patches.map unnamedPatch
  reserved : first.registry.reserved = second.registry.reserved
  nextId : first.registry.nextId = second.registry.nextId

theorem Alike.refl (target : Patched) : Alike target target := ⟨rfl, rfl, rfl, rfl⟩

variable {first second : Patched}

theorem any_unnamed {patches : List Patch} {asks : Patch → Bool}
    (deaf : ∀ patch, asks (unnamedPatch patch) = asks patch) :
    (patches.map unnamedPatch).any asks = patches.any asks := by
  rw [List.any_map]
  congr 1
  exact funext deaf

theorem Alike.overlaps (alike : Alike first second) (address size ignoreId : Nat) :
    overlaps address size ignoreId first.registry =
      overlaps address size ignoreId second.registry := by
  have deaf (patch : Patch) : ((unnamedPatch patch).id != ignoreId &&
      decide (address < (unnamedPatch patch).stop) &&
        decide ((unnamedPatch patch).address < (address + size) % addressSpace)) =
      (patch.id != ignoreId && decide (address < patch.stop) &&
        decide (patch.address < (address + size) % addressSpace)) := rfl
  simp only [PatchRegistry.overlaps, alike.reserved]
  rw [← any_unnamed deaf, alike.patches, any_unnamed deaf]

/-- A patch is applied in the same way whatever it is for. -/
theorem Alike.apply (alike : Alike first second) (access : TargetSession.Access) (address : Nat)
    (bytes : List UInt8) (one other originalText : String) :
    Alike (PatchRegistry.apply access address bytes one originalText first).1
        (PatchRegistry.apply access address bytes other originalText second).1 ∧
      (PatchRegistry.apply access address bytes one originalText first).2 =
        (PatchRegistry.apply access address bytes other originalText second).2 := by
  unfold PatchRegistry.apply reserve
  rw [alike.overlaps, alike.memory, alike.nextId, alike.reserved]
  split
  · exact ⟨alike, rfl⟩
  · split
    · exact ⟨alike, rfl⟩
    · cases PatchRegistry.overlaps address bytes.length 0 second.registry with
      | true => exact ⟨alike, rfl⟩
      | false =>
          simp only [Bool.false_eq_true, ↓reduceIte]
          split
          · exact ⟨⟨rfl, alike.patches, rfl, rfl⟩, rfl⟩
          · split
            · exact ⟨⟨rfl, alike.patches, rfl, rfl⟩, rfl⟩
            · refine ⟨⟨rfl, ?_, rfl, rfl⟩, rfl⟩
              simp only [PatchRegistry.record, List.map_append, alike.patches]
              rfl

theorem find_unnamed (patches : List Patch) (id : Nat) :
    (patches.map unnamedPatch).find? (fun patch => patch.id == id) =
      (patches.find? fun patch => patch.id == id).map unnamedPatch := List.find?_map

theorem Alike.lookupToggle (alike : Alike first second) (id : Nat) (enabled : Bool) :
    PatchRegistry.lookupToggle id enabled first.registry =
      PatchRegistry.lookupToggle id enabled second.registry := by
  have same : (first.registry.patches.find? fun patch => patch.id == id).map unnamedPatch =
      (second.registry.patches.find? fun patch => patch.id == id).map unnamedPatch := by
    rw [← find_unnamed, alike.patches, find_unnamed]
  unfold PatchRegistry.lookupToggle
  cases here : first.registry.patches.find? fun patch => patch.id == id with
  | none =>
      rw [here, Option.map_none] at same
      rw [Option.map_eq_none_iff.mp same.symm]
  | some patch =>
      rw [here, Option.map_some] at same
      obtain ⟨other, there, bare⟩ := Option.map_eq_some_iff.mp same.symm
      simp only [unnamedPatch, Patch.mk.injEq, true_and] at bare
      obtain ⟨_, address, original, patched, _, flag⟩ := bare
      rw [there]
      simp only [address, original, patched, flag]

theorem markEnabled_unnamed (id : Nat) (enabled : Bool) (patches : List Patch) :
    (markEnabled id enabled patches).map unnamedPatch =
      markEnabled id enabled (patches.map unnamedPatch) := by
  induction patches with
  | nil => rfl
  | cons patch rest ih =>
      rw [List.map_cons, markEnabled, markEnabled, show (unnamedPatch patch).id = patch.id from rfl]
      split
      · rfl
      · rw [List.map_cons, ih]

theorem Alike.setEnabled (alike : Alike first second) (access : TargetSession.Access) (id : Nat)
    (enabled : Bool) :
    Alike (PatchRegistry.setEnabled access id enabled first).1
        (PatchRegistry.setEnabled access id enabled second).1 ∧
      (PatchRegistry.setEnabled access id enabled first).2 =
        (PatchRegistry.setEnabled access id enabled second).2 := by
  unfold PatchRegistry.setEnabled
  rw [alike.lookupToggle, alike.memory]
  split
  · exact ⟨alike, rfl⟩
  · exact ⟨alike, rfl⟩
  · split
    · exact ⟨⟨rfl, alike.patches, alike.reserved, alike.nextId⟩, rfl⟩
    · refine ⟨⟨rfl, ?_, alike.reserved, alike.nextId⟩, rfl⟩
      simp only [PatchRegistry.flag]
      rw [markEnabled_unnamed, markEnabled_unnamed, alike.patches]

theorem erase_unnamed (id : Nat) (patches : List Patch) :
    (patches.filter fun patch => patch.id != id).map unnamedPatch =
      (patches.map unnamedPatch).filter fun patch => patch.id != id := by
  rw [List.filter_map]
  rfl

theorem Alike.remove (alike : Alike first second) (access : TargetSession.Access) (id : Nat) :
    Alike (PatchRegistry.remove access id first).1 (PatchRegistry.remove access id second).1 ∧
      (PatchRegistry.remove access id first).2 = (PatchRegistry.remove access id second).2 := by
  obtain ⟨later, reply⟩ := alike.setEnabled access id false
  unfold PatchRegistry.remove
  rcases one : PatchRegistry.setEnabled access id false first with ⟨left, failure | done⟩ <;>
    rcases other : PatchRegistry.setEnabled access id false second with ⟨right, problem | finished⟩ <;>
    rw [one, other] at later reply
  · exact ⟨later, reply⟩
  · cases reply
  · cases reply
  · refine ⟨⟨later.memory, ?_, later.reserved, later.nextId⟩, rfl⟩
    simp only [PatchRegistry.erase]
    rw [erase_unnamed, erase_unnamed, later.patches]

theorem Alike.removeAll (alike : Alike first second) (env : Env) (ids : List Nat) :
    Alike (removeAll env ids first).1 (removeAll env ids second).1 := by
  induction ids generalizing first second with
  | nil => exact alike
  | cons id rest ih =>
      obtain ⟨later, reply⟩ := alike.remove (env.undo id) id
      unfold AutoAssembler.removeAll
      rcases one : PatchRegistry.remove (env.undo id) id first with ⟨left, failure | done⟩ <;>
        rcases other : PatchRegistry.remove (env.undo id) id second with
          ⟨right, problem | finished⟩ <;>
        rw [one, other] at later reply
      · exact ih later
      · cases reply
      · cases reply
      · exact ih later

theorem Alike.tornBytes (alike : Alike first second) (env : Env) (index : Nat) (block : Block)
    (bytes : List UInt8) :
    tornBytes env index block bytes first = tornBytes env index block bytes second := by
  unfold AutoAssembler.tornBytes
  obtain ⟨_, reply⟩ := alike.apply { env.block index with write := none } block.address bytes "" "" ""
  rw [reply]

/-- A block is written in the same way under every name. -/
theorem Alike.writeBlock (alike : Alike first second) (env : Env) (one other : Text) (index : Nat)
    (block : Block) :
    Alike (writeBlock env one index block first).1 (writeBlock env other index block second).1 ∧
      (writeBlock env one index block first).2 = (writeBlock env other index block second).2 := by
  unfold AutoAssembler.writeBlock
  simp only [alike.tornBytes]
  rw [alike.memory]
  split
  · split
    · exact ⟨⟨rfl, alike.patches, alike.reserved, alike.nextId⟩, rfl⟩
    · exact ⟨⟨rfl, alike.patches, alike.reserved, alike.nextId⟩, rfl⟩
  · obtain ⟨later, reply⟩ := alike.apply (env.block index) block.address
      (padToInstructionBoundary env second.memory block.address block.bytes)
      ("script: " ++ String.ofList one) ("script: " ++ String.ofList other) ""
    rcases here : PatchRegistry.apply (env.block index) block.address
      (padToInstructionBoundary env second.memory block.address block.bytes)
      ("script: " ++ String.ofList one) "" first with ⟨left, failure | id⟩ <;>
    rcases there : PatchRegistry.apply (env.block index) block.address
      (padToInstructionBoundary env second.memory block.address block.bytes)
      ("script: " ++ String.ofList other) "" second with ⟨right, problem | number⟩ <;>
    rw [here, there] at later reply
    · cases reply
      have memory : left.memory = right.memory := later.memory
      refine ⟨⟨?_, later.patches, later.reserved, later.nextId⟩, rfl⟩
      simp only [memory]
    · cases reply
    · cases reply
    · cases reply
      exact ⟨later, rfl⟩

theorem Alike.writeBlocks (alike : Alike first second) (env : Env) (one other : Text) (index : Nat)
    (blocks : List Block) :
    Alike (writeBlocks env one index blocks first).1 (writeBlocks env other index blocks second).1 ∧
      (writeBlocks env one index blocks first).2 = (writeBlocks env other index blocks second).2 := by
  induction blocks generalizing first second index with
  | nil => exact ⟨alike, rfl⟩
  | cons block rest ih =>
      obtain ⟨later, reply⟩ := alike.writeBlock env one other index block
      unfold AutoAssembler.writeBlocks
      rcases here : AutoAssembler.writeBlock env one index block first with ⟨left, message | id⟩ <;>
        rcases there : AutoAssembler.writeBlock env other index block second with
          ⟨right, problem | number⟩ <;>
        rw [here, there] at later reply <;> simp only
      · cases reply
        exact ⟨later, rfl⟩
      · cases reply
      · cases reply
      · cases reply
        obtain ⟨last, same⟩ := ih later (index + 1)
        exact ⟨last, Prod.ext (congrArg (fun reply => id.toList ++ reply.1) same)
          (congrArg (·.2) same)⟩

/-- Two worlds that differ at most in what the records of their targets say they are for. -/
structure AlikeWorlds (first second : World) : Prop where
  target : Alike first.target second.target
  blocks : first.blocks = second.blocks
  symbols : first.symbols = second.symbols

theorem AlikeWorlds.freeAll {one other : World} (alike : AlikeWorlds one other) (env : Env)
    (addresses : List Nat) :
    AlikeWorlds (freeAll env addresses one) (freeAll env addresses other) := by
  induction addresses generalizing one other with
  | nil => exact alike
  | cons address rest ih =>
      rw [AutoAssembler.freeAll, List.foldl_cons, AutoAssembler.freeAll, List.foldl_cons]
      apply ih
      unfold World.free
      cases env.freed address with
      | some failure => exact alike
      | none => exact ⟨alike.target, by rw [alike.blocks], alike.symbols⟩

/-- A state as good as none: nothing in the target, and no names. -/
def Fresh (state : RunState) : Prop := OwnsNothing state ∧ state.symbols = []

/-- From fresh states, two scripts of one source do the same. -/
theorem runEnable_alike {one other : Script} (sameSource : one.source = other.source)
    {left right : RunState} (freshLeft : Fresh left) (freshRight : Fresh right) (env : Env)
    (world : World) :
    AlikeWorlds (runEnable env one left world).1 (runEnable env other right world).1 ∧
      (runEnable env one left world).2.2 = (runEnable env other right world).2.2 := by
  unfold runEnable
  rw [sameSource, freshLeft.2, freshRight.2, freshLeft.1.1, freshRight.1.1]
  split
  · exact ⟨⟨.refl _, rfl, rfl⟩, rfl⟩
  · rename_i after compiled _
    obtain ⟨wrote, reply⟩ := (Alike.refl after.target).writeBlocks env one.name other.name 0
      compiled.result.blocks
    rcases here : writeBlocks env one.name 0 compiled.result.blocks after.target with
      ⟨first, ids, outcome⟩
    rcases there : writeBlocks env other.name 0 compiled.result.blocks after.target with
      ⟨second, numbers, answer⟩
    rw [here, there] at wrote reply
    cases reply
    dsimp only at wrote
    cases outcome with
    | error message =>
        refine ⟨?_, rfl⟩
        apply AlikeWorlds.freeAll
        exact ⟨wrote.removeAll env _, rfl, rfl⟩
    | ok reply => exact ⟨⟨wrote, rfl, rfl⟩, rfl⟩

/-- An enable whose section compiles, with names in it, and that then fails to write. -/
def leavesNames (env : Env) (script : Script) (state : RunState) (world : World) : Bool :=
  match compile env true script.source true state.symbols world with
  | (_, .error _) => false
  | (after, .ok compiled) =>
      !compiled.layout.isEmpty &&
        !(writeBlocks env script.name 0 compiled.result.blocks after.target).2.2.isOk

/-- No script is turned on in a way that leaves its names behind. -/
def ForgetsNames (s : Scripts) : Call → Prop
  | .setEnabled env id true world =>
      ∀ script ∈ s.find id, script.enabled = false →
        leavesNames env script (s.stored id) world = false
  | _ => True

theorem fresh_runEnable {env : Env} {script : Script} {state : RunState} {world : World}
    {message : String} (fresh : Fresh state)
    (forgets : leavesNames env script state world = false)
    (failed : (runEnable env script state world).2.2 = .error message) :
    Fresh (runEnable env script state world).2.1 := by
  refine ⟨ownsNothing_runEnable fresh.1 failed, ?_⟩
  have result := runEnable_result env script state world
  generalize runEnable env script state world = outcome at result failed
  cases result with
  | refused => exact fresh.2
  | rolledBack after compiled target ids message compiles wrote =>
      have nameless : compiled.layout = [] := by
        rw [leavesNames, compiles] at forgets
        simpa [wrote, Except.isOk, Except.toBool] using forgets
      show assignAll caseful compiled.layout state.symbols = []
      rw [nameless, fresh.2]
      rfl
  | enabled => cases failed

theorem fresh_runDisable (env : Env) (script : Script) (state : RunState) (world : World) :
    Fresh (runDisable env script state world).2.1 := by
  refine ⟨ownsNothing_runDisable env script state world, ?_⟩
  simp only [runDisable]
  split <;> rfl

/-- In every run in which no enable leaves names behind, the state of a script that is off is
as good as none. -/
theorem fresh_reached {s : Scripts} (reached : Reached step ForgetsNames {} s) : Kept Fresh s := by
  refine kept_reached reached ⟨⟨rfl, rfl, rfl⟩, rfl⟩ fresh_runDisable ?_
  intro before env id world script message forgets found off fresh failed
  exact fresh_runEnable fresh (forgets script found off) failed

/-- Two scripts of one source behave alike, whichever lists they are in and whatever was done
with either before, as long as no enable has left names behind. -/
theorem setEnabled_alike {s t : Scripts} (reachedFirst : Reached step ForgetsNames {} s)
    (reachedSecond : Reached step ForgetsNames {} t) {one other : Script} {first second : Nat}
    (foundFirst : s.find first = some one) (foundSecond : t.find second = some other)
    (sameSource : one.source = other.source) (sameFlag : one.enabled = other.enabled) (env : Env)
    (world : World) :
    AlikeWorlds (setEnabled env first true world s).1 (setEnabled env second true world t).1 ∧
      (setEnabled env first true world s).2.2 = (setEnabled env second true world t).2.2 := by
  cases off : one.enabled with
  | true =>
      have nothing := @setEnabled_already env first world s one foundFirst
      have nothingEither := @setEnabled_already env second world t other foundSecond
      rw [off] at nothing
      rw [← sameFlag, off] at nothingEither
      rw [nothing, nothingEither]
      exact ⟨⟨.refl _, rfl, rfl⟩, rfl⟩
  | false =>
      rw [setEnabled_runs foundFirst (off ▸ Bool.false_ne_true),
        setEnabled_runs foundSecond (sameFlag ▸ off ▸ Bool.false_ne_true)]
      obtain ⟨inFirst, rfl⟩ := find_eq_some foundFirst
      obtain ⟨inSecond, rfl⟩ := find_eq_some foundSecond
      exact runEnable_alike sameSource ((fresh_reached reachedFirst).idle one inFirst off)
        ((fresh_reached reachedSecond).idle other inSecond (sameFlag ▸ off)) env world

/-- A script that does not compile, put right, beside one that was right at once. -/
def putRight : List Call :=
  [.add [] leakingScript.toList, .setEnabled bench 1 true bareWorld,
    .update 1 [] caveText, .add [] caveText]
where
  caveText : Text := "alloc(m, 100)\nm:\ndb 1\n20000000:\nnop".toList

theorem putRight_alike :
    AlikeWorlds (setEnabled bench 1 true bareWorld (run step {} putRight)).1
        (setEnabled bench 2 true bareWorld (run step {} putRight)).1 ∧
      (setEnabled bench 1 true bareWorld (run step {} putRight)).2.2 =
        (setEnabled bench 2 true bareWorld (run step {} putRight)).2.2 := by
  have follows : Follows step ForgetsNames {} putRight := by
    refine ⟨trivial, ?_, trivial, trivial, trivial⟩
    intro script found _
    obtain rfl : (⟨1, "Script 1".toList, leakingScript.toList, false⟩ : Script) = script :=
      Option.some.inj found
    decide
  exact @setEnabled_alike _ _ follows.reached follows.reached
    ⟨1, "Script 1".toList, putRight.caveText, false⟩ ⟨2, "Script 2".toList, putRight.caveText, false⟩
    1 2 rfl rfl rfl rfl bench bareWorld

/-- Two scripts of one source. The first was turned on once before, where its block came to
lie elsewhere and nothing could be written. -/
def leftNames : List Call :=
  [.add [] text, .add [] text, .setEnabled refusing 1 true busyWorld]
where
  text : Text := "alloc(m, 100)\nm:\ndb 1\na:\ndb 2".toList
  busyWorld : World := { bareWorld with blocks := [⟨0x10000, 0x1000⟩] }

/-- The label of the first script is an origin now, at the place it once had. -/
theorem leftNames_differ :
    (setEnabled refusing 1 true leftNames.busyWorld (run step {} (leftNames.take 2))).2.2.isOk =
        false ∧
      (setEnabled bench 1 true bareWorld (run step {} leftNames)).2.2.isOk = true ∧
      (setEnabled bench 2 true bareWorld (run step {} leftNames)).2.2.isOk = true ∧
      (setEnabled bench 1 true bareWorld (run step {} leftNames)).1.target.memory 0x20001 = 2 ∧
      (setEnabled bench 2 true bareWorld (run step {} leftNames)).1.target.memory 0x20001 = 0x90 ∧
      (setEnabled bench 2 true bareWorld (run step {} leftNames)).1.target.memory 0x10001 = 2 := by
  decide

end PointerLab.AutoAssembler
