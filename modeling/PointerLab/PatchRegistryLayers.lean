import PointerLab.Layers
import PointerLab.PatchRegistry

set_option autoImplicit false

/- The records of a registry, read as reversible layers over the unpatched target. -/
namespace PointerLab.PatchRegistry

open Overlay Layers TargetSession

def Patch.layer (patch : Patch) : Layer UInt8 :=
  ⟨patch.address, patch.originalBytes, patch.patchedBytes, patch.enabled⟩

def layersOf (patches : List Patch) (id : Nat) : Option (Layer UInt8) :=
  (patches.find? fun patch => patch.id == id).map Patch.layer

theorem layersOf_eq_some {patches : List Patch} {id : Nat} {layer : Layer UInt8}
    (present : layersOf patches id = some layer) :
    ∃ patch ∈ patches, patch.id = id ∧ patch.layer = layer := by
  obtain ⟨patch, found, same⟩ := Option.map_eq_some_iff.mp present
  exact ⟨patch, List.mem_of_find?_eq_some found, by simpa using List.find?_some found, same⟩

theorem layersOf_eq_none {patches : List Patch} {id : Nat} :
    layersOf patches id = none ↔ ∀ patch ∈ patches, patch.id ≠ id := by
  simp [layersOf]

theorem layersOf_of_mem {patches : List Patch} (ids : (patches.map Patch.id).Nodup)
    {patch : Patch} (member : patch ∈ patches) : layersOf patches patch.id = some patch.layer := by
  induction patches with
  | nil => contradiction
  | cons first rest ih =>
      rw [List.map_cons, List.nodup_cons] at ids
      rcases List.mem_cons.mp member with rfl | inRest
      · simp [layersOf]
      · have other : first.id ≠ patch.id :=
          fun same => ids.1 (same ▸ List.mem_map_of_mem inRest)
        simpa [layersOf, other] using ih ids.2 inRest

/-- A new record at the end of the table. -/
theorem layersOf_append {patches : List Patch} {patch : Patch}
    (fresh : ∀ old ∈ patches, old.id ≠ patch.id) :
    layersOf (patches ++ [patch]) =
      Function.update (layersOf patches) patch.id (some patch.layer) := by
  funext id
  by_cases here : id = patch.id
  · subst here
    have none := layersOf_eq_none.mpr fresh
    rw [layersOf, Option.map_eq_none_iff] at none
    simp [layersOf, List.find?_append, none]
  · rw [Function.update_of_ne here]
    simp [layersOf, List.find?_append, Ne.symm here]

theorem layersOf_markEnabled (patches : List Patch) (id : Nat) (enabled : Bool) :
    layersOf (markEnabled id enabled patches) =
      Function.update (layersOf patches) id
        ((layersOf patches id).map fun layer => { layer with up := enabled }) := by
  induction patches with
  | nil =>
      funext other
      by_cases here : other = id
      · simp [markEnabled, layersOf, here]
      · simp [markEnabled, layersOf, Function.update_of_ne here]
  | cons patch rest ih =>
      funext other
      unfold markEnabled
      by_cases same : patch.id = id
      · rw [if_pos same]
        by_cases here : other = id
        · subst here
          simp [layersOf, same, Patch.layer]
        · have different : patch.id ≠ other := fun eq => here (eq.symm.trans same)
          simp [layersOf, different, Function.update_of_ne here]
      · rw [if_neg same]
        have below := congrFun ih other
        by_cases here : other = id
        · subst here
          simp only [Function.update_self] at below ⊢
          simpa [layersOf, same] using below
        · rw [Function.update_of_ne here] at below ⊢
          by_cases first : patch.id = other
          · simp [layersOf, first]
          · simpa [layersOf, first] using below

theorem layersOf_erase (patches : List Patch) (id : Nat) :
    layersOf (patches.filter fun patch => patch.id != id) =
      Function.update (layersOf patches) id none := by
  funext other
  by_cases here : other = id
  · subst here
    rw [Function.update_self, layersOf_eq_none]
    intro patch member
    simpa using (List.mem_filter.mp member).2
  · rw [Function.update_of_ne here]
    unfold layersOf
    rw [List.find?_filter]
    congr 2
    funext patch
    by_cases same : patch.id = other
    · simp [same, here]
    · simp [same]

theorem markEnabled_ids (patches : List Patch) (id : Nat) (enabled : Bool) :
    (markEnabled id enabled patches).map Patch.id = patches.map Patch.id := by
  induction patches with
  | nil => rfl
  | cons patch rest ih =>
      unfold markEnabled
      split
      · rfl
      · rw [List.map_cons, List.map_cons, ih]

/-- Toggling changes one record, and nothing of it but the flag. -/
theorem mem_markEnabled {patches : List Patch} (ids : (patches.map Patch.id).Nodup) {id : Nat}
    {enabled : Bool} {patch : Patch} (member : patch ∈ markEnabled id enabled patches) :
    ∃ old ∈ patches, patch = { old with enabled := patch.enabled } ∧
      (patch.id = id → patch.enabled = enabled) ∧ (patch.id ≠ id → patch = old) := by
  induction patches with
  | nil => contradiction
  | cons first rest ih =>
      rw [List.map_cons, List.nodup_cons] at ids
      unfold markEnabled at member
      split at member
      · rename_i here
        rcases List.mem_cons.mp member with rfl | inRest
        · exact ⟨first, List.mem_cons_self, rfl, fun _ => rfl, fun other => absurd here other⟩
        · refine ⟨patch, List.mem_cons_of_mem _ inRest, rfl, fun same => ?_, fun _ => rfl⟩
          exact absurd (List.mem_map_of_mem inRest) (here.trans same.symm ▸ ids.1)
      · rename_i other
        rcases List.mem_cons.mp member with rfl | inRest
        · exact ⟨patch, List.mem_cons_self, rfl, fun same => absurd same other, fun _ => rfl⟩
        · obtain ⟨old, inOld, same⟩ := ih ids.2 inRest
          exact ⟨old, List.mem_cons_of_mem _ inOld, same⟩

/-- A table whose records are numbered apart and lie in user space. -/
structure Tidy (r : Registry) : Prop where
  ids : (r.patches.map Patch.id).Nodup
  numbered : ∀ patch ∈ r.patches, 0 < patch.id ∧ patch.id < r.nextId
  inUserSpace : ∀ patch ∈ r.patches, patch.address + patch.size ≤ userSpaceEnd

theorem Tidy.congr {r after : Registry} (tidy : Tidy r) (patches : after.patches = r.patches)
    (nextId : r.nextId ≤ after.nextId) : Tidy after := by
  refine ⟨patches ▸ tidy.ids, ?_, patches ▸ tidy.inUserSpace⟩
  intro patch member
  rw [patches] at member
  have numbered := tidy.numbered patch member
  omega

theorem Tidy.flag {r : Registry} (tidy : Tidy r) (id : Nat) (enabled : Bool) :
    Tidy (flag id enabled r) := by
  refine ⟨(markEnabled_ids r.patches id enabled).symm ▸ tidy.ids, ?_, ?_⟩
  · intro patch member
    obtain ⟨old, inTable, same, _⟩ := mem_markEnabled tidy.ids member
    rw [same]
    exact tidy.numbered old inTable
  · intro patch member
    obtain ⟨old, inTable, same, _⟩ := mem_markEnabled tidy.ids member
    rw [same]
    exact tidy.inUserSpace old inTable

theorem Tidy.erase {r : Registry} (tidy : Tidy r) (id : Nat) : Tidy (erase id r) := by
  have kept : (r.patches.filter fun patch => patch.id != id).Sublist r.patches :=
    List.filter_sublist
  exact ⟨tidy.ids.sublist (kept.map Patch.id),
    fun patch member => tidy.numbered patch (kept.subset member),
    fun patch member => tidy.inUserSpace patch (kept.subset member)⟩

theorem Tidy.record {r : Registry} {patch : Patch} (tidy : Tidy r)
    (fresh : ∀ old ∈ r.patches, old.id ≠ patch.id) (numbered : 0 < patch.id ∧ patch.id < r.nextId)
    (inUserSpace : patch.address + patch.size ≤ userSpaceEnd) : Tidy (record patch r) := by
  refine ⟨?_, ?_, ?_⟩
  · show ((r.patches ++ [patch]).map Patch.id).Nodup
    rw [List.map_append, List.nodup_append]
    refine ⟨tidy.ids, by simp, ?_⟩
    intro id inOld other inNew
    obtain ⟨old, inTable, rfl⟩ := List.mem_map.mp inOld
    rw [List.map_singleton, List.mem_singleton] at inNew
    exact inNew ▸ fresh old inTable
  · intro old member
    rcases List.mem_append.mp member with inTable | new
    · exact tidy.numbered old inTable
    · exact List.mem_singleton.mp new ▸ numbered
  · intro old member
    rcases List.mem_append.mp member with inTable | new
    · exact tidy.inUserSpace old inTable
    · exact List.mem_singleton.mp new ▸ inUserSpace

/-- In user space no range wraps, and the overlap check is what it says. -/
theorem apart_of_not_overlaps {r : Registry} (tidy : Tidy r) {address size : Nat}
    (clear : overlaps address size 0 r = false) (inUserSpace : address + size ≤ userSpaceEnd)
    {patch : Patch} (member : patch ∈ r.patches) :
    Apart address size patch.address patch.size := by
  have numbered := tidy.numbered patch member
  have below := tidy.inUserSpace patch member
  unfold overlaps at clear
  simp only [Bool.or_eq_false_iff, List.any_eq_false] at clear
  have notInside := clear.1 patch member
  have stop : (address + size) % addressSpace = address + size := by
    unfold addressSpace userSpaceEnd at *
    omega
  have patchStop : patch.stop = patch.address + patch.size := by
    unfold Patch.stop addressSpace
    unfold userSpaceEnd at below
    omega
  rw [stop, patchStop] at notInside
  have different : patch.id ≠ 0 := by omega
  simp only [bne_iff_ne, ne_eq, different, not_false_eq_true, Bool.and_eq_true, decide_eq_true_eq,
    true_and, not_and, Nat.not_lt] at notInside
  unfold Apart
  omega

theorem apart_of_not_reserved {r : Registry} {address size : Nat}
    (clear : overlaps address size 0 r = false) (inUserSpace : address + size ≤ userSpaceEnd)
    {range : Reservation} (member : range ∈ r.reserved)
    (below : range.address + range.size ≤ userSpaceEnd) :
    Apart address size range.address range.size := by
  unfold overlaps at clear
  simp only [Bool.or_eq_false_iff, List.any_eq_false] at clear
  have notInside := clear.2 range member
  have stop : (address + size) % addressSpace = address + size := by
    unfold addressSpace userSpaceEnd at *
    omega
  have rangeStop : (range.address + range.size) % addressSpace = range.address + range.size := by
    unfold addressSpace userSpaceEnd at *
    omega
  rw [stop, rangeStop] at notInside
  simp only [Bool.and_eq_true, decide_eq_true_eq, not_and, Nat.not_lt] at notInside
  unfold Apart
  omega

theorem patches_apart {base memory : Nat → UInt8} {r : Registry} (tidy : Tidy r)
    (laid : Laid base (layersOf r.patches) memory) :
    r.patches.Pairwise fun first second =>
      Apart first.address first.size second.address second.size := by
  have different := List.pairwise_map.mp tidy.ids
  refine different.imp_of_mem ?_
  intro first second inFirst inSecond other
  exact Apart.symm (laid.apart first.id second.id first.layer second.layer other
    (layersOf_of_mem tidy.ids inFirst) (layersOf_of_mem tidy.ids inSecond))

theorem originals_genuine {base memory : Nat → UInt8} {r : Registry} (tidy : Tidy r)
    (laid : Laid base (layersOf r.patches) memory) {patch : Patch} (member : patch ∈ r.patches) :
    patch.originalBytes = slice base patch.address patch.patchedBytes.length := by
  have present := layersOf_of_mem tidy.ids member
  have sameLength : patch.patchedBytes.length = patch.originalBytes.length :=
    laid.sameLength patch.id patch.layer present
  rw [sameLength]
  exact laid.genuine patch.id patch.layer present

/-- Target memory is the unpatched memory under the enabled records. -/
theorem memory_eq_covered {base memory : Nat → UInt8} {r : Registry} (tidy : Tidy r)
    (laid : Laid base (layersOf r.patches) memory) :
    memory = covered base (r.patches.map Patch.layer) := by
  apply laid.memory_eq_covered
  · intro layer
    constructor
    · intro member
      obtain ⟨patch, inTable, rfl⟩ := List.mem_map.mp member
      exact ⟨patch.id, layersOf_of_mem tidy.ids inTable⟩
    · rintro ⟨id, present⟩
      obtain ⟨patch, inTable, _, rfl⟩ := layersOf_eq_some present
      exact List.mem_map_of_mem inTable
  · rw [List.pairwise_map]
    refine (patches_apart tidy laid).imp_of_mem ?_
    intro first second inFirst inSecond apart
    have firstLength := laid.sameLength _ _ (layersOf_of_mem tidy.ids inFirst)
    have secondLength := laid.sameLength _ _ (layersOf_of_mem tidy.ids inSecond)
    rwa [firstLength, secondLength]

theorem reserve_ok {r claimed : Registry} {address size id : Nat}
    (reserved : reserve address size r = (claimed, .ok id)) :
    overlaps address size 0 r = false ∧ id = r.nextId ∧
      claimed = { r with
        nextId := r.nextId + 1, reserved := r.reserved ++ [⟨r.nextId, address, size⟩] } := by
  unfold reserve at reserved
  split at reserved
  · exact absurd (congrArg Prod.snd reserved) (by simp [fail])
  · rename_i clear
    cases reserved
    exact ⟨by simpa using clear, rfl, rfl⟩

theorem readOriginal_ok {access : Access} {address size : Nat} {memory : Nat → UInt8}
    {original : List UInt8} (read : readOriginal access address size memory = .ok original)
    (nonempty : 0 < size) :
    original = slice memory address size ∧ address + size ≤ userSpaceEnd := by
  unfold readOriginal at read
  split at read
  · contradiction
  · rename_i bytes answered
    split at read
    · contradiction
    · rename_i whole
      cases read
      exact readBytes_full answered (by simpa using whole) nonempty

theorem writePatch_ok {access : Access} {address : Nat} {bytes : List UInt8}
    {memory after : Nat → UInt8} {reply : Unit}
    (written : writePatch access address bytes memory = (after, .ok reply)) :
    after = overlay memory address bytes := by
  unfold writePatch at written
  rcases writeBytes_cases access address bytes memory with ok | ⟨failure, failed⟩
  · rw [ok] at written
    exact (congrArg Prod.fst written).symm
  · rw [failed] at written
    exact absurd (congrArg Prod.snd written) (by simp [fail])

theorem writePatch_error {access : Access} {address : Nat} {bytes : List UInt8}
    {memory after : Nat → UInt8} {failure : Failure}
    (written : writePatch access address bytes memory = (after, .error failure)) :
    after = memory := by
  unfold writePatch at written
  rcases writeBytes_cases access address bytes memory with ok | ⟨failure, failed⟩
  · rw [ok] at written
    exact absurd (congrArg Prod.snd written) (by simp)
  · rw [failed] at written
    exact (congrArg Prod.fst written).symm

/-- What the first section of `setEnabled` finds, in terms of the layers. -/
theorem lookupToggle_write {r : Registry} {id : Nat} {enabled : Bool} {address : Nat}
    {bytes : List UInt8} (found : lookupToggle id enabled r = .write address bytes) :
    ∃ layer, layersOf r.patches id = some layer ∧ layer.up ≠ enabled ∧ address = layer.address ∧
      bytes = if enabled then layer.cover else layer.under := by
  unfold lookupToggle at found
  split at found
  · contradiction
  · rename_i patch present
    split at found
    · contradiction
    · rename_i other
      cases found
      exact ⟨patch.layer, by rw [layersOf, present, Option.map_some], other, rfl, rfl⟩

theorem lookupToggle_idle {r : Registry} {id : Nat} {enabled : Bool}
    (idle : ∀ address bytes, lookupToggle id enabled r ≠ .write address bytes) :
    ∀ layer, layersOf r.patches id = some layer → layer.up = enabled := by
  intro layer present
  obtain ⟨patch, found, rfl⟩ := Option.map_eq_some_iff.mp present
  unfold lookupToggle at idle
  rw [found] at idle
  dsimp only at idle
  split at idle
  · rename_i same
    exact same
  · exact absurd rfl (idle _ _)

theorem writeToggle_cases (access : Access) (enabled : Bool) (address : Nat) (bytes : List UInt8)
    (memory : Nat → UInt8) :
    writeToggle access enabled address bytes memory = (overlay memory address bytes, .ok ()) ∨
      ∃ failure, writeToggle access enabled address bytes memory = (memory, .error failure) := by
  unfold writeToggle
  split
  · exact Or.inr ⟨_, rfl⟩
  · rcases writeBytes_cases access address bytes memory with ok | ⟨failure, failed⟩
    · rw [ok]
      exact Or.inl rfl
    · rw [failed]
      exact Or.inr ⟨_, rfl⟩

end PointerLab.PatchRegistry
