import PointerLab.AutoAssemblerRun
import PointerLab.PatchRegistryInvariant
import PointerLab.Writes

set_option autoImplicit false

/- What the blocks of a script do to the target, and what taking its patches off again
leaves of that. -/
namespace PointerLab.AutoAssembler

open Domain OrderedMap Overlay PatchRegistry SymbolTable TargetSession Writes

/-- New records get numbers no record has. -/
def Numbered (r : Registry) : Prop := ∀ patch ∈ r.patches, patch.id < r.nextId

theorem apply_error {access : Access} {address : Nat} {bytes : List UInt8}
    {description originalText : String} {s after : Patched} {failure : Failure}
    (failed : apply access address bytes description originalText s = (after, .error failure)) :
    after.memory = s.memory ∧ after.registry.patches = s.registry.patches := by
  unfold apply at failed
  split at failed
  · cases failed
    exact ⟨rfl, rfl⟩
  · split at failed
    · cases failed
      exact ⟨rfl, rfl⟩
    · split at failed
      · cases failed
        exact ⟨rfl, rfl⟩
      · rename_i claimed id reserved
        obtain ⟨_, _, rfl⟩ := reserve_ok reserved
        split at failed
        · cases failed
          exact ⟨rfl, rfl⟩
        · split at failed
          · rename_i written
            cases failed
            exact ⟨writePatch_error written, rfl⟩
          · cases failed

/-- A patch that was applied has its bytes in the target and a record of what was there. -/
theorem apply_ok {access : Access} {address id : Nat} {bytes : List UInt8}
    {description originalText : String} {s after : Patched}
    (applied : apply access address bytes description originalText s = (after, .ok id)) :
    id = s.registry.nextId ∧ after.registry.nextId = s.registry.nextId + 1 ∧
      after.memory = overlay s.memory address bytes ∧
      after.registry.patches = s.registry.patches ++
        [⟨id, address, slice s.memory address bytes.length, bytes, description, originalText,
          true⟩] := by
  unfold apply at applied
  split at applied
  · cases applied
  · rename_i nonempty
    have size : 0 < bytes.length := by
      rw [List.isEmpty_iff] at nonempty
      exact List.length_pos_of_ne_nil nonempty
    split at applied
    · cases applied
    · split at applied
      · cases applied
      · rename_i claimed id reserved
        obtain ⟨_, rfl, rfl⟩ := reserve_ok reserved
        split at applied
        · cases applied
        · rename_i original read
          split at applied
          · cases applied
          · rename_i memory written
            obtain ⟨rfl, _⟩ := readOriginal_ok read size
            cases applied
            exact ⟨rfl, rfl, writePatch_ok written, rfl⟩

theorem find_last {old : List Patch} {patch : Patch} (fresh : ∀ other ∈ old, other.id ≠ patch.id) :
    (old ++ [patch]).find? (fun other => other.id == patch.id) = some patch := by
  have none : old.find? (fun other => other.id == patch.id) = none := by
    rw [List.find?_eq_none]
    intro other member
    rw [beq_iff_eq]
    exact fresh other member
  rw [List.find?_append, none, Option.none_or]
  exact List.find?_cons_of_pos (beq_self_eq_true patch.id)

theorem markEnabled_last {old : List Patch} {patch : Patch} (enabled : Bool)
    (fresh : ∀ other ∈ old, other.id ≠ patch.id) :
    markEnabled patch.id enabled (old ++ [patch]) = old ++ [{ patch with enabled := enabled }] := by
  induction old with
  | nil => simp [markEnabled]
  | cons first rest ih =>
      rw [List.cons_append, markEnabled, if_neg (fresh first List.mem_cons_self),
        ih fun other inRest => fresh other (List.mem_cons_of_mem _ inRest), List.cons_append]

/-- The record added last is taken off: what it covered is back, and the record is gone. -/
theorem remove_last {access : Access} (succeeds : Succeeds access) {s : Patched} {old : List Patch}
    {patch : Patch} (last : s.registry.patches = old ++ [patch]) (enabled : patch.enabled = true)
    (fresh : ∀ other ∈ old, other.id ≠ patch.id) :
    ∃ after, PatchRegistry.remove access patch.id s = (after, .ok ()) ∧
      after.registry.patches = old ∧
      after.memory = overlay s.memory patch.address patch.originalBytes := by
  have found : lookupToggle patch.id false s.registry =
      .write patch.address patch.originalBytes := by
    rw [lookupToggle, last, find_last fresh]
    simp [enabled]
  have toggled : PatchRegistry.setEnabled access patch.id false s =
      (⟨flag patch.id false s.registry, overlay s.memory patch.address patch.originalBytes⟩,
        .ok ()) := by
    rw [PatchRegistry.setEnabled, found]
    simp only [writeToggle_succeeds succeeds]
  refine ⟨_, by rw [PatchRegistry.remove, toggled], ?_, rfl⟩
  show (markEnabled patch.id false s.registry.patches).filter (fun other => other.id != patch.id) = old
  rw [last, markEnabled_last false fresh, List.filter_append, List.filter_eq_self.mpr]
  · simp
  · intro other member
    rw [bne_iff_ne]
    exact fresh other member

/-- The write that a block comes to. -/
def asWrite (env : Env) (block : Block) (memory : Nat → UInt8) : Write UInt8 where
  address := block.address
  cells :=
    if block.intoAllocation then block.bytes
    else padToInstructionBoundary env memory block.address block.bytes
  recorded := !block.intoAllocation

/-- What a block comes to whose write fails. -/
def tornWrite (env : Env) (index : Nat) (block : Block) (target : Patched) : Write UInt8 where
  address := block.address
  cells := tornBytes env index block (asWrite env block target.memory).cells target
  recorded := false

/-- The writes of the blocks up to the first that fails, and what that one leaves. -/
def written (env : Env) (name : Text) : Nat → List Block → Patched → List (Write UInt8)
  | _, [], _ => []
  | index, block :: rest, target =>
      match writeBlock env name index block target with
      | (_, .error _) => [tornWrite env index block target]
      | (after, .ok _) => asWrite env block target.memory :: written env name (index + 1) rest after

variable {env : Env} {name : Text} {index : Nat} {block : Block} {target after : Patched}

theorem writeBlock_error {message : String}
    (failed : writeBlock env name index block target = (after, .error message)) :
    after.memory = overlay target.memory block.address (tornWrite env index block target).cells ∧
      after.registry.patches = target.registry.patches := by
  unfold writeBlock at failed
  split at failed
  · rename_i into
    rcases writeBytes_cases (env.block index) block.address block.bytes target.memory with
      ok | ⟨failure, failing⟩
    · rw [ok] at failed
      cases failed
    · rw [failing] at failed
      cases failed
      exact ⟨by simp only [tornWrite, asWrite, into, ↓reduceIte], rfl⟩
  · rename_i outside
    dsimp only at failed
    split at failed
    · rename_i refused
      cases failed
      obtain ⟨memory, patches⟩ := apply_error refused
      refine ⟨?_, patches⟩
      rw [memory]
      simp only [tornWrite, asWrite, outside, Bool.false_eq_true, ↓reduceIte]
    · cases failed

/-- What one block that was written did: its bytes, and a record of its own if it lies over
the target's code. -/
theorem writeBlock_ok {added : Option Nat}
    (ok : writeBlock env name index block target = (after, .ok added)) :
    after.memory = overlay target.memory block.address (asWrite env block target.memory).cells ∧
      ((block.intoAllocation = true ∧ added = none ∧ after.registry = target.registry) ∨
        ∃ patch : Patch, block.intoAllocation = false ∧ added = some patch.id ∧
          patch.id = target.registry.nextId ∧
          after.registry.nextId = target.registry.nextId + 1 ∧ patch.enabled = true ∧
          patch.address = block.address ∧
          patch.patchedBytes = (asWrite env block target.memory).cells ∧
          patch.originalBytes = slice target.memory block.address patch.patchedBytes.length ∧
          after.registry.patches = target.registry.patches ++ [patch]) := by
  unfold writeBlock at ok
  split at ok
  · rename_i into
    rcases writeBytes_cases (env.block index) block.address block.bytes target.memory with
      done | ⟨failure, failing⟩
    · rw [done] at ok
      cases ok
      refine ⟨?_, Or.inl ⟨into, rfl, rfl⟩⟩
      simp only [asWrite, into, ↓reduceIte]
    · rw [failing] at ok
      cases ok
  · rename_i outside
    rw [Bool.not_eq_true] at outside
    have cells : (asWrite env block target.memory).cells =
        padToInstructionBoundary env target.memory block.address block.bytes := by
      simp only [asWrite, outside, Bool.false_eq_true, ↓reduceIte]
    rw [cells]
    dsimp only at ok
    split at ok
    · cases ok
    · rename_i id applied
      cases ok
      obtain ⟨isNext, next, memory, patches⟩ := apply_ok applied
      exact ⟨memory, Or.inr ⟨_, outside, rfl, isNext, next, rfl, rfl, rfl, rfl, patches⟩⟩

theorem writeBlocks_cons_error {message : String} {rest : List Block}
    (failed : writeBlock env name index block target = (after, .error message)) :
    writeBlocks env name index (block :: rest) target = (after, [], .error message) ∧
      written env name index (block :: rest) target = [tornWrite env index block target] := by
  simp only [writeBlocks, written, failed, and_self]

theorem writeBlocks_cons_ok {added : Option Nat} {rest : List Block}
    (ok : writeBlock env name index block target = (after, .ok added)) :
    writeBlocks env name index (block :: rest) target =
        ((writeBlocks env name (index + 1) rest after).1,
          added.toList ++ (writeBlocks env name (index + 1) rest after).2.1,
          (writeBlocks env name (index + 1) rest after).2.2) ∧
      written env name index (block :: rest) target =
        asWrite env block target.memory :: written env name (index + 1) rest after := by
  simp only [writeBlocks, written, ok, and_self]

theorem removeAll_append (env : Env) (front back : List Nat) (target : Patched) :
    removeAll env (front ++ back) target =
      ((removeAll env back (removeAll env front target).1).1,
        (removeAll env front target).2 ++ (removeAll env back (removeAll env front target).1).2) := by
  induction front generalizing target with
  | nil => rfl
  | cons id rest ih =>
      rw [List.cons_append, removeAll, removeAll]
      split
      · rw [ih, List.cons_append]
      · rw [ih]

theorem numbered_append {r after : Registry} {patch : Patch} (numbered : Numbered r)
    (isNext : patch.id = r.nextId) (next : after.nextId = r.nextId + 1)
    (patches : after.patches = r.patches ++ [patch]) : Numbered after := by
  intro other member
  rw [patches, List.mem_append, List.mem_singleton] at member
  rcases member with old | rfl
  · have below := numbered other old
    omega
  · omega

/-- The blocks, one after the other, do the writes of the list, whether the last of them
failed or not. -/
theorem writeBlocks_memory (blocks : List Block) :
    (writeBlocks env name index blocks target).1.memory =
      perform target.memory (written env name index blocks target) := by
  induction blocks generalizing index target with
  | nil => rfl
  | cons block rest ih =>
      rcases step : writeBlock env name index block target with ⟨after, message | added⟩
      · obtain ⟨result, torn⟩ := @writeBlocks_cons_error _ _ _ _ _ _ _ rest step
        rw [result, torn]
        exact (writeBlock_error step).1
      · obtain ⟨result, writes⟩ := @writeBlocks_cons_ok _ _ _ _ _ _ _ rest step
        rw [result, writes, ih, perform, perform, List.foldl_cons, (writeBlock_ok step).1]
        rfl

/-- The records the blocks have added, and what each of them covers. -/
theorem writeBlocks_records (blocks : List Block) :
    ∃ records : List Patch,
      (writeBlocks env name index blocks target).1.registry.patches =
        target.registry.patches ++ records ∧
      records.map (·.id) = (writeBlocks env name index blocks target).2.1 ∧
      records.map (fun patch => (⟨patch.address, patch.patchedBytes, true⟩ : Write UInt8)) =
        (written env name index blocks target).filter (·.recorded) := by
  induction blocks generalizing index target with
  | nil => exact ⟨[], (List.append_nil _).symm, rfl, rfl⟩
  | cons block rest ih =>
      rcases step : writeBlock env name index block target with ⟨after, message | added⟩
      · obtain ⟨result, torn⟩ := @writeBlocks_cons_error _ _ _ _ _ _ _ rest step
        rw [result, torn]
        exact ⟨[], by rw [(writeBlock_error step).2, List.append_nil], rfl, rfl⟩
      · obtain ⟨result, writes⟩ := @writeBlocks_cons_ok _ _ _ _ _ _ _ rest step
        obtain ⟨records, patches, ids, recorded⟩ := @ih (index + 1) after
        rw [result, writes]
        rcases (writeBlock_ok step).2 with ⟨into, rfl, registry⟩ |
          ⟨patch, outside, rfl, _, _, _, address, cells, _, grown⟩
        · refine ⟨records, ?_, ids, ?_⟩
          · rw [← registry]
            exact patches
          · rw [List.filter_cons_of_neg (by simp [asWrite, into]), recorded]
        · refine ⟨patch :: records, ?_, ?_, ?_⟩
          · rw [List.append_cons, ← grown]
            exact patches
          · rw [List.map_cons, ids]
            rfl
          · rw [List.filter_cons_of_pos (by simp [asWrite, outside]), List.map_cons, recorded, cells,
              address]
            simp only [asWrite, outside, Bool.not_false]

/-- Taking the patches of the blocks off again, the last one first, puts the records back to
what they were and leaves behind only what was written without a record. -/
theorem removeAll_writeBlocks {back : Env} (succeeds : ∀ id, Succeeds (back.undo id))
    (blocks : List Block) (numbered : Numbered target.registry) :
    ∃ undone,
      removeAll back (writeBlocks env name index blocks target).2.1.reverse
        (writeBlocks env name index blocks target).1 = (undone, []) ∧
      undone.registry.patches = target.registry.patches ∧
      undone.memory = putBack target.memory (written env name index blocks target) := by
  induction blocks generalizing index target with
  | nil => exact ⟨target, rfl, rfl, rfl⟩
  | cons block rest ih =>
      rcases step : writeBlock env name index block target with ⟨after, message | added⟩
      · obtain ⟨result, torn⟩ := @writeBlocks_cons_error _ _ _ _ _ _ _ rest step
        obtain ⟨memory, patches⟩ := writeBlock_error step
        rw [result, torn]
        exact ⟨after, rfl, patches, memory⟩
      · obtain ⟨result, writes⟩ := @writeBlocks_cons_ok _ _ _ _ _ _ _ rest step
        obtain ⟨memory, did⟩ := writeBlock_ok step
        rw [result, writes, List.reverse_append, removeAll_append, putBack]
        rcases did with ⟨into, rfl, registry⟩ |
          ⟨patch, outside, rfl, isNext, next, enabled, address, cells, original, patches⟩
        · obtain ⟨undone, removed, patches, restored⟩ := @ih (index + 1) after (registry ▸ numbered)
          rw [removed]
          refine ⟨undone, rfl, registry ▸ patches, ?_⟩
          rw [restored, memory]
          simp [asWrite, into]
        · obtain ⟨undone, removed, left, restored⟩ :=
            @ih (index + 1) after (numbered_append numbered isNext next patches)
          have fresh : ∀ other ∈ target.registry.patches, other.id ≠ patch.id := by
            intro other member
            have below := numbered other member
            omega
          obtain ⟨last, gone, records, back_⟩ :=
            remove_last (succeeds patch.id) (left.trans patches) enabled fresh
          rw [removed]
          refine ⟨last, ?_, records, ?_⟩
          · simp only [Option.toList_some, List.reverse_singleton, removeAll, gone, List.append_nil]
          · rw [back_, restored, memory, original, cells, address]
            simp [asWrite, outside]

end PointerLab.AutoAssembler
