import PointerLab.PatchRegistryLayers
import PointerLab.Runs

set_option autoImplicit false

/- The registry when its calls run one after the other. -/
namespace PointerLab.PatchRegistry

open Overlay Layers TargetSession

/-- What every call leaves behind when it runs alone. -/
structure Settled (base : Nat → UInt8) (s : Patched) : Prop where
  tidy : Tidy s.registry
  positive : 0 < s.registry.nextId
  unreserved : s.registry.reserved = []
  laid : Laid base (layersOf s.registry.patches) s.memory

theorem settled_start (base : Nat → UInt8) : Settled base ⟨{}, base⟩ :=
  ⟨⟨List.nodup_nil, nofun, nofun⟩, Nat.one_pos, rfl, Laid.bare base⟩

/-- A reservation that is given up leaves nothing but its number behind. -/
theorem settled_release {base : Nat → UInt8} {s : Patched} {claimed : Registry}
    {address size id : Nat} (settled : Settled base s)
    (reserved : reserve address size s.registry = (claimed, .ok id)) :
    Settled base ⟨release id claimed, s.memory⟩ := by
  obtain ⟨_, rfl, rfl⟩ := reserve_ok reserved
  refine ⟨settled.tidy.congr rfl (Nat.le_succ _), Nat.succ_pos _, ?_, settled.laid⟩
  simp [release, settled.unreserved]

theorem settled_apply {base : Nat → UInt8} {s : Patched} (settled : Settled base s)
    (access : Access) (address : Nat) (bytes : List UInt8) (description originalText : String) :
    Settled base (apply access address bytes description originalText s).1 := by
  unfold apply
  split
  · exact settled
  · rename_i nonempty
    have size : 0 < bytes.length := by
      rw [List.isEmpty_iff] at nonempty
      exact List.length_pos_of_ne_nil nonempty
    split
    · exact settled
    · split
      · exact settled
      · rename_i claimed id reserved
        split
        · exact settled_release settled reserved
        · rename_i original read
          split
          · rename_i memory failure written
            rw [writePatch_error written]
            exact settled_release settled reserved
          · rename_i memory written
            rw [writePatch_ok written]
            have released := settled_release settled reserved
            obtain ⟨genuine, inUserSpace⟩ := readOriginal_ok read size
            obtain ⟨clear, rfl, rfl⟩ := reserve_ok reserved
            have apart : ∀ id layer, layersOf s.registry.patches id = some layer →
                layer.Clear address bytes.length := by
              intro id layer present
              obtain ⟨patch, member, _, rfl⟩ := layersOf_eq_some present
              exact apart_of_not_overlaps settled.tidy clear inUserSpace member
            have fresh : ∀ old ∈ s.registry.patches, old.id ≠ s.registry.nextId :=
              fun old member => Nat.ne_of_lt (settled.tidy.numbered old member).2
            rw [settled.laid.slice_clear address bytes.length apart] at genuine
            have laid := settled.laid.put s.registry.nextId address bytes
              (layersOf_eq_none.mpr fresh) apart
            refine ⟨?_, Nat.succ_pos _, released.unreserved, ?_⟩
            · have claimed : Tidy { s.registry with
                  nextId := s.registry.nextId + 1
                  reserved := s.registry.reserved ++ [⟨s.registry.nextId, address, bytes.length⟩] } :=
                settled.tidy.congr rfl (Nat.le_succ _)
              refine claimed.record fresh ⟨settled.positive, Nat.lt_succ_self _⟩ ?_
              simpa only [Patch.size, genuine, slice_length] using inUserSpace
            · show Laid base (layersOf (s.registry.patches ++ [_])) _
              rw [layersOf_append fresh]
              rwa [← genuine] at laid

/-- All that `setEnabled` can do: nothing at all, or both halves of a toggle. -/
theorem setEnabled_cases (access : Access) (id : Nat) (enabled : Bool) (s : Patched) :
    ((setEnabled access id enabled s).1 = s ∧ ((setEnabled access id enabled s).2 = .ok () →
        ∀ layer, layersOf s.registry.patches id = some layer → layer.up = enabled)) ∨
      ∃ layer, layersOf s.registry.patches id = some layer ∧
        setEnabled access id enabled s = (⟨flag id enabled s.registry,
          overlay s.memory layer.address (if enabled then layer.cover else layer.under)⟩, .ok ()) := by
  unfold setEnabled
  split
  · exact Or.inl ⟨rfl, fun refused => absurd refused (by simp [fail])⟩
  · rename_i found
    exact Or.inl ⟨rfl, fun _ => lookupToggle_idle (by simp [found])⟩
  · rename_i address bytes found
    obtain ⟨layer, present, _, rfl, rfl⟩ := lookupToggle_write found
    rcases writeToggle_cases access enabled layer.address
      (if enabled then layer.cover else layer.under) s.memory with ok | ⟨failure, failed⟩
    · rw [ok]
      exact Or.inr ⟨layer, present, rfl⟩
    · rw [failed]
      exact Or.inl ⟨rfl, fun refused => absurd refused (by simp)⟩

theorem setEnabled_ids (access : Access) (id : Nat) (enabled : Bool)
    (target : Patched) :
    (setEnabled access id enabled target).1.registry.patches.map Patch.id =
      target.registry.patches.map Patch.id := by
  rcases setEnabled_cases access id enabled target with ⟨same, _⟩ | ⟨layer, _, result⟩
  · rw [same]
  · rw [result]
    exact markEnabled_ids target.registry.patches id enabled

theorem restoreEach_ids (access : Nat → Access) (ids : List Nat) (target : Patched) :
    (restoreEach access ids target).1.registry.patches.map Patch.id =
      target.registry.patches.map Patch.id := by
  induction ids generalizing target with
  | nil => rfl
  | cons id rest ih =>
      have one := setEnabled_ids (access id) id false target
      unfold restoreEach
      split
      · rename_i result
        rw [result] at one
        exact (ih _).trans one
      · rename_i result
        rw [result] at one
        exact (ih _).trans one

theorem remove_ids (access : Access) (id : Nat) (target : Patched) :
    (remove access id target).1.registry.patches.map Patch.id ⊆
      target.registry.patches.map Patch.id := by
  have one := setEnabled_ids access id false target
  unfold remove
  split
  · rename_i result
    rw [result] at one
    exact fun other member => one ▸ member
  · rename_i after result
    rw [result] at one
    rw [← one]
    exact (List.filter_sublist.map _).subset

theorem settled_setEnabled {base : Nat → UInt8} {s : Patched} (settled : Settled base s)
    (access : Access) (id : Nat) (enabled : Bool) :
    Settled base (setEnabled access id enabled s).1 := by
  rcases setEnabled_cases access id enabled s with ⟨same, _⟩ | ⟨layer, present, result⟩
  · rwa [same]
  · rw [result]
    refine ⟨settled.tidy.flag id enabled, settled.positive, settled.unreserved, ?_⟩
    show Laid base (layersOf (markEnabled id enabled s.registry.patches)) _
    rw [layersOf_markEnabled, present]
    exact settled.laid.show present enabled

/-- After a disable that reports success the patch is off, if it is there at all. -/
theorem setEnabled_off (access : Access) {id : Nat} (s : Patched)
    (ok : (setEnabled access id false s).2 = .ok ()) {layer : Layer UInt8}
    (present : layersOf (setEnabled access id false s).1.registry.patches id = some layer) :
    layer.up = false := by
  rcases setEnabled_cases access id false s with ⟨same, idle⟩ | ⟨old, before, result⟩
  · rw [same] at present
    exact idle ok layer present
  · rw [result] at present
    have marked := congrFun (layersOf_markEnabled s.registry.patches id false) id
    rw [Function.update_self, before] at marked
    have now := present.symm.trans marked
    cases now
    rfl

theorem settled_remove {base : Nat → UInt8} {s : Patched} (settled : Settled base s)
    (access : Access) (id : Nat) : Settled base (remove access id s).1 := by
  have toggled := settled_setEnabled settled access id false
  unfold remove
  split
  · rename_i after failure result
    rwa [result] at toggled
  · rename_i after result
    rw [result] at toggled
    refine ⟨toggled.tidy.erase id, toggled.positive, toggled.unreserved, ?_⟩
    show Laid base (layersOf (after.registry.patches.filter fun patch => patch.id != id)) after.memory
    rw [layersOf_erase]
    apply toggled.laid.drop
    intro layer present
    apply setEnabled_off access s
    · rw [result]
    · rw [result]
      exact present

theorem settled_restoreEach {base : Nat → UInt8} (access : Nat → Access) (ids : List Nat)
    {s : Patched} (settled : Settled base s) : Settled base (restoreEach access ids s).1 := by
  induction ids generalizing s with
  | nil => exact settled
  | cons id rest ih =>
      have toggled := settled_setEnabled settled (access id) id false
      unfold restoreEach
      split
      · rename_i after failure result
        rw [result] at toggled
        exact ih toggled
      · rename_i after result
        rw [result] at toggled
        exact ih toggled

/-- One call, however its accesses end, keeps the registry settled. -/
theorem settled_step {base : Nat → UInt8} {s : Patched} (settled : Settled base s)
    (operation : Operation) : Settled base (step s operation) := by
  cases operation with
  | apply address bytes description originalText access =>
      exact settled_apply settled access address bytes description originalText
  | setEnabled id enabled access => exact settled_setEnabled settled access id enabled
  | remove id access => exact settled_remove settled access id
  | restoreAll access => exact settled_restoreEach access _ settled

/-- The patch does not show: it is disabled or has no record. -/
def Off (id : Nat) (s : Patched) : Prop :=
  ∀ layer, layersOf s.registry.patches id = some layer → layer.up = false

def Succeeds (access : Access) : Prop := access.attached = true ∧ access.write = none

/-- A call that takes the patch off the target, with every write succeeding. -/
def TakesOff (id : Nat) : Operation → Prop
  | .apply .. => False
  | .setEnabled other enabled access => other = id ∧ enabled = false ∧ Succeeds access
  | .remove other access => other = id ∧ Succeeds access
  | .restoreAll access => ∀ other, Succeeds (access other)

theorem writeToggle_succeeds {access : Access} (succeeds : Succeeds access) (enabled : Bool)
    (address : Nat) (bytes : List UInt8) (memory : Nat → UInt8) :
    writeToggle access enabled address bytes memory = (overlay memory address bytes, .ok ()) := by
  simp [writeToggle, writeBytes, succeeds.1, succeeds.2]

theorem off_setEnabled {id : Nat} {s : Patched} (access : Access) (other : Nat) (off : Off id s) :
    Off id (setEnabled access other false s).1 := by
  rcases setEnabled_cases access other false s with ⟨same, _⟩ | ⟨layer, present, result⟩
  · rwa [same]
  · rw [result]
    intro shown now
    change layersOf (markEnabled other false s.registry.patches) id = some shown at now
    rw [layersOf_markEnabled, present] at now
    by_cases here : id = other
    · subst here
      rw [Function.update_self] at now
      cases now
      rfl
    · rw [Function.update_of_ne here] at now
      exact off shown now

theorem off_erase {id : Nat} {s : Patched} (other : Nat) (off : Off id s) :
    Off id { s with registry := erase other s.registry } := by
  intro layer present
  change layersOf (s.registry.patches.filter fun patch => patch.id != other) id = _ at present
  rw [layersOf_erase] at present
  exact off layer (update_none_eq_some present).2

theorem off_remove {id : Nat} {s : Patched} (access : Access) (other : Nat)
    (off : Off id (setEnabled access other false s).1) : Off id (remove access other s).1 := by
  unfold remove
  split
  · rename_i result
    rwa [result] at off
  · rename_i result
    rw [result] at off
    exact off_erase other off

theorem off_restoreEach {id : Nat} (access : Nat → Access) (ids : List Nat) {s : Patched}
    (off : Off id s) : Off id (restoreEach access ids s).1 := by
  induction ids generalizing s with
  | nil => exact off
  | cons other rest ih =>
      have kept := off_setEnabled (access other) other off
      unfold restoreEach
      split
      · rename_i result
        rw [result] at kept
        exact ih kept
      · rename_i result
        rw [result] at kept
        exact ih kept

theorem setEnabled_succeeds {access : Access} (succeeds : Succeeds access) (id : Nat)
    (s : Patched) : Off id (setEnabled access id false s).1 := by
  unfold setEnabled
  split
  · rename_i found
    exact lookupToggle_idle (by simp [found])
  · rename_i found
    exact lookupToggle_idle (by simp [found])
  · rename_i address bytes found
    obtain ⟨layer, present, _, _, _⟩ := lookupToggle_write found
    rw [writeToggle_succeeds succeeds]
    intro shown now
    change layersOf (markEnabled id false s.registry.patches) id = some shown at now
    rw [layersOf_markEnabled, present, Function.update_self] at now
    cases now
    rfl

/-- A removal whose write succeeds leaves no record of the patch. -/
theorem remove_succeeds {access : Access} (succeeds : Succeeds access) (id : Nat) (s : Patched) :
    id ∉ (remove access id s).1.registry.patches.map Patch.id := by
  unfold remove setEnabled
  cases found : lookupToggle id false s.registry with
  | missing =>
      unfold lookupToggle at found
      split at found
      · rename_i absent
        intro member
        obtain ⟨patch, inTable, same⟩ := List.mem_map.mp member
        have unlike := List.find?_eq_none.mp absent patch inTable
        simp [same] at unlike
      · split at found <;> contradiction
  | already => simp [erase]
  | write address bytes =>
      simp only [writeToggle_succeeds succeeds]
      simp [erase]

theorem restoreEach_succeeds {access : Nat → Access} (succeeds : ∀ id, Succeeds (access id))
    {ids : List Nat} {id : Nat} (member : id ∈ ids) (s : Patched) :
    Off id (restoreEach access ids s).1 := by
  induction ids generalizing s with
  | nil => contradiction
  | cons other rest ih =>
      rcases List.mem_cons.mp member with rfl | inRest
      · have off := setEnabled_succeeds (succeeds id) id s
        unfold restoreEach
        split
        · rename_i result
          rw [result] at off
          exact off_restoreEach access rest off
        · rename_i result
          rw [result] at off
          exact off_restoreEach access rest off
      · unfold restoreEach
        split
        · exact ih inRest _
        · exact ih inRest _

theorem mem_enabledIds {r : Registry} {id : Nat} {layer : Layer UInt8}
    (present : layersOf r.patches id = some layer) (up : layer.up = true) :
    id ∈ enabledIds r := by
  obtain ⟨patch, member, rfl, rfl⟩ := layersOf_eq_some present
  exact List.mem_map_of_mem (List.mem_filter.mpr ⟨member, up⟩)

theorem off_taken {id : Nat} {operation : Operation} (takesOff : TakesOff id operation)
    (s : Patched) : Off id (step s operation) := by
  cases operation with
  | apply => exact takesOff.elim
  | setEnabled other enabled access =>
      obtain ⟨rfl, rfl, succeeds⟩ := takesOff
      exact setEnabled_succeeds succeeds other s
  | remove other access =>
      obtain ⟨rfl, succeeds⟩ := takesOff
      exact off_remove access other (setEnabled_succeeds succeeds other s)
  | restoreAll access =>
      by_cases enabled : id ∈ enabledIds s.registry
      · exact restoreEach_succeeds takesOff enabled s
      · apply off_restoreEach
        intro layer present
        cases up : layer.up with
        | false => rfl
        | true => exact absurd (mem_enabledIds present up) enabled

theorem off_kept {id other : Nat} {operation : Operation} {s : Patched}
    (takesOff : TakesOff other operation) (off : Off id s) : Off id (step s operation) := by
  cases operation with
  | apply => exact takesOff.elim
  | setEnabled target enabled access =>
      obtain ⟨rfl, rfl, _⟩ := takesOff
      exact off_setEnabled access target off
  | remove target access => exact off_remove access target (off_setEnabled access target off)
  | restoreAll access => exact off_restoreEach access _ off

/-- Once some call of the list has taken a patch off, none of the others puts it back. -/
theorem off_run {id : Nat} (operations : List Operation) {s : Patched}
    (only : ∀ operation ∈ operations, ∃ other, TakesOff other operation)
    (taken : Off id s ∨ ∃ operation ∈ operations, TakesOff id operation) :
    Off id (Runs.run step s operations) := by
  induction operations generalizing s with
  | nil => exact taken.resolve_right (by simp)
  | cons operation rest ih =>
      obtain ⟨other, takesOther⟩ := only operation List.mem_cons_self
      apply ih fun next inRest => only next (List.mem_cons_of_mem _ inRest)
      rcases taken with off | ⟨first, member, takes⟩
      · exact Or.inl (off_kept takesOther off)
      · rcases List.mem_cons.mp member with rfl | inRest
        · exact Or.inl (off_taken takes s)
        · exact Or.inr ⟨first, inRest, takes⟩

/-- Over every sequence of calls, however their accesses end: records lie apart, their
originals are the unpatched bytes, and the target is its unpatched self under the enabled
ones. Taking every patch off, in any order, leaves the target as it was. -/
theorem registry_reversible {base : Nat → UInt8} {s : Patched}
    (reached : Runs.Reached step (fun _ _ => True) ⟨{}, base⟩ s) :
    s.registry.patches.Pairwise
        (fun first second => Apart first.address first.size second.address second.size) ∧
      (∀ patch ∈ s.registry.patches,
        patch.originalBytes = slice base patch.address patch.patchedBytes.length) ∧
      s.memory = covered base (s.registry.patches.map Patch.layer) ∧
      ∀ operations, (∀ operation ∈ operations, ∃ id, TakesOff id operation) →
        (∀ patch ∈ s.registry.patches, ∃ operation ∈ operations, TakesOff patch.id operation) →
          (Runs.run step s operations).memory = base := by
  have settled : Settled base s :=
    reached.invariant (settled_start base) fun _ operation settled _ =>
      settled_step settled operation
  refine ⟨patches_apart settled.tidy settled.laid,
    fun patch member => originals_genuine settled.tidy settled.laid member,
    memory_eq_covered settled.tidy settled.laid, ?_⟩
  intro operations only every
  have after : Settled base (Runs.run step s operations) := by
    have more : Runs.Reached step (fun _ _ => True) s (Runs.run step s operations) :=
      Runs.Follows.reached (Runs.follows_true step s operations)
    exact more.invariant settled fun _ operation settled _ => settled_step settled operation
  apply after.laid.memory_eq_base
  intro id layer present
  refine off_run operations only ?_ layer present
  cases before : layersOf s.registry.patches id with
  | none =>
      refine Or.inl fun layer present => ?_
      exact absurd (before.symm.trans present) (Option.some_ne_none layer).symm
  | some layer =>
      obtain ⟨patch, member, rfl, _⟩ := layersOf_eq_some before
      exact Or.inr (every patch member)

/-- Two patches side by side, taken off in the order they were applied. -/
def twoPatches : Patched :=
  Runs.run step ⟨{}, fun _ => 0x33⟩
    [.apply 0x1000 [0x90, 0x90] "first" "" {}, .apply 0x1002 [0xEB] "second" "" {}]

theorem twoPatches_reversible :
    twoPatches.registry.patches.map Patch.id = [1, 2] ∧ twoPatches.memory 0x1001 = 0x90 ∧
      (Runs.run step twoPatches [.setEnabled 1 false {}, .remove 2 {}]).memory = fun _ => 0x33 := by
  have ids : twoPatches.registry.patches.map Patch.id = [1, 2] := by decide
  refine ⟨ids, by decide, ?_⟩
  apply (registry_reversible (Runs.follows_true step _ _).reached).2.2.2
  · simp only [List.mem_cons, List.not_mem_nil, or_false, forall_eq_or_imp, forall_eq]
    exact ⟨⟨1, rfl, rfl, rfl, rfl⟩, ⟨2, rfl, rfl, rfl⟩⟩
  · intro patch member
    have id : patch.id ∈ twoPatches.registry.patches.map Patch.id := List.mem_map_of_mem member
    rw [ids] at id
    simp only [List.mem_cons, List.not_mem_nil, or_false] at id
    rcases id with first | second
    · exact ⟨.setEnabled 1 false {}, by simp, first.symm, rfl, rfl, rfl⟩
    · exact ⟨.remove 2 {}, by simp, second.symm, rfl, rfl⟩

end PointerLab.PatchRegistry
