import Mathlib.Data.List.Pairwise
import PointerLab.SpeedHookImports

set_option autoImplicit false

/- What `pl_hook_count` counts, and which slots are put back to what: over any sequence of
loads, unloads, patches and restores. -/
namespace PointerLab.SpeedHook

open Domain Runs

/-- The slot held a replacement, and holds now what the loader put there. -/
def Restored.Right (write : Restored) : Prop :=
  write.before.held.isReplacement = true ∧ write.value = .loaded write.before.resolved

/-- An entry whose name is one of the four, and which of them it is. -/
def targetEntry (entry : Nat × Option Text) : Option (Nat × ClockName) :=
  (entry.2.bind Imports.targetNamed).map fun target => (entry.1, target)

/-- The entries of a module that the payload may redirect. -/
def Module.targets (build : Build) (m : Module) : List (Nat × ClockName) :=
  if m.handle = build.self ∨ m.handle = 0 then []
  else if m.magic ≠ dosSignature then []
  else if m.signature ≠ ntSignature then []
  else if m.directoryAddress = 0 ∨ m.directorySize = 0 then []
  else
    (m.descriptors.takeWhile fun descriptor => descriptor.name ≠ 0).flatMap fun descriptor =>
      if descriptor.firstThunk = 0 ∨ descriptor.originalFirstThunk = 0 then []
      else (m.thunks build descriptor).filterMap targetEntry

namespace Imports

def replaced (s : Imports) (slot : Nat) : Bool := (s.memory slot).held.isReplacement

/-- The import slots that hold a replacement. -/
def redirected (build : Build) (s : Imports) : Finset Nat :=
  (s.slots build).toFinset.filter fun slot => s.replaced slot = true

structure Accurate (build : Build) (s : Imports) : Prop where
  count : s.hookCount = (s.redirected build).card
  restored : ∀ write ∈ s.restored, write.Right

def targets (build : Build) (s : Imports) : List (Nat × ClockName) :=
  s.modules.flatMap fun m => if isClockModule m.szModule then [] else m.targets build

/-- The slots that are not in the list yet, as long as there is room for them. -/
def freshSlots (recorded : List Nat) : List Nat → List Nat
  | [] => []
  | slot :: rest =>
      if slot ∈ recorded ∨ maxPatches ≤ recorded.length then freshSlots recorded rest
      else slot :: freshSlots (recorded ++ [slot]) rest

/-- No module goes with a redirected slot, and no write that a patch or a restore makes is
refused. -/
def Steady (build : Build) (s : Imports) : ImportEvent → Prop
  | .load _ => True
  | .unload handle => ∀ m ∈ s.modules, m.handle = handle →
      ∀ slot ∈ m.slots build, s.replaced slot = false
  | .patchEverything snapshot protect => snapshot = true →
      ∀ slot ∈ freshSlots (s.patches.map Patch.slot) ((s.targets build).map Prod.fst),
        protect slot = true
  | .unpatchEverything protect => ∀ slot ∈ s.slots build, s.replaced slot = true →
      protect slot = true

variable {build : Build} {protect : Nat → Bool} {s : Imports}

/-! ## The entries a patch goes through -/

theorem patchThunk_eq (s : Imports) (entry : Nat × Option Text) :
    s.patchThunk build protect entry =
      match targetEntry entry with
      | none => s
      | some target => s.patchSlot build protect target.1 target.2 := by
  obtain ⟨slot, name⟩ := entry
  cases name with
  | none => rfl
  | some name =>
      unfold patchThunk targetEntry
      simp only [Option.bind_some]
      cases targetNamed name <;> rfl

theorem patchModule_eq (s : Imports) (m : Module) :
    s.patchModule build protect m =
      (m.targets build).foldl (fun s entry => s.patchSlot build protect entry.1 entry.2) s := by
  unfold patchModule Module.targets
  split
  · rfl
  split
  · rfl
  split
  · rfl
  split
  · rfl
  rw [List.foldl_flatMap]
  congr 1
  funext s descriptor
  split
  · rfl
  · rw [List.foldl_filterMap]
    congr 1
    funext s entry
    rw [patchThunk_eq]
    cases targetEntry entry <;> rfl

theorem patchEverything_eq (s : Imports) :
    s.patchEverything build true protect =
      (s.targets build).foldl (fun s entry => s.patchSlot build protect entry.1 entry.2) s := by
  unfold patchEverything targets
  rw [if_pos rfl, List.foldl_flatMap]
  congr 1
  funext s m
  split
  · rfl
  · exact patchModule_eq s m

/-! ## The list of patches and the slots -/

/-- The slots in the list, and the originals beside them. A write that failed leaves a slot in the
list that holds no replacement. -/
structure Booked (build : Build) (s : Imports) : Prop where
  once : (s.patches.map Patch.slot).Nodup
  count : s.hookCount = s.patches.length
  within : ∀ slot ∈ s.slots build, s.replaced slot = true → slot ∈ s.patches.map Patch.slot
  genuine : ∀ slot ∈ s.slots build, s.replaced slot = false →
    (s.memory slot).held = .loaded (s.memory slot).resolved
  originals : ∀ patch ∈ s.patches, patch.slot ∈ s.slots build →
    patch.original = .loaded (s.memory patch.slot).resolved
  apart : s.modules.Pairwise fun first second =>
    (first.slots build).Disjoint (second.slots build)
  restored : ∀ write ∈ s.restored, write.Right

/-- Every slot in the list is mapped and holds a replacement. -/
def Complete (build : Build) (s : Imports) : Prop :=
  ∀ slot ∈ s.patches.map Patch.slot, slot ∈ s.slots build ∧ s.replaced slot = true

@[simp] theorem mem_redirected {slot : Nat} :
    slot ∈ s.redirected build ↔ slot ∈ s.slots build ∧ s.replaced slot = true := by
  simp [redirected]

/-- The counter counts the list, so it is right when the list is. -/
theorem Booked.accurate_iff_complete (booked : s.Booked build) : s.Accurate build ↔ s.Complete build := by
  have length_eq : (s.patches.map Patch.slot).toFinset.card = s.patches.length := by
    rw [List.toFinset_card_of_nodup booked.once, List.length_map]
  have part : s.redirected build ⊆ (s.patches.map Patch.slot).toFinset := by
    intro slot inside
    rw [mem_redirected] at inside
    exact List.mem_toFinset.mpr (booked.within slot inside.1 inside.2)
  constructor
  · intro accurate slot listed
    have same := Finset.eq_of_subset_of_card_le part (by
      rw [length_eq, ← booked.count, accurate.count])
    rw [← mem_redirected, same]
    exact List.mem_toFinset.mpr listed
  · intro complete
    refine ⟨?_, booked.restored⟩
    have same : s.redirected build = (s.patches.map Patch.slot).toFinset := by
      apply Finset.Subset.antisymm part
      intro slot listed
      rw [mem_redirected]
      exact complete slot (List.mem_toFinset.mp listed)
    rw [same, length_eq, booked.count]

theorem alreadyPatched_iff (s : Imports) (slot : Nat) :
    s.alreadyPatched slot = true ↔ slot ∈ s.patches.map Patch.slot := by
  simp [alreadyPatched]

/-- What `patchSlot` does to a slot it has no record of. -/
def redirect (protect : Nat → Bool) (s : Imports) (slot : Nat) (target : ClockName) : Imports :=
  { s with
    patches := s.patches ++ [Patch.mk slot (s.memory slot).held]
    memory :=
      if protect slot then
        Function.update s.memory slot { s.memory slot with held := .replacement target }
      else s.memory
    hookCount := s.hookCount + 1 }

theorem patchSlot_eq (booked : s.Booked build) {slot : Nat} (mapped : slot ∈ s.slots build)
    (target : ClockName) :
    s.patchSlot build protect slot target =
      if slot ∈ s.patches.map Patch.slot ∨ maxPatches ≤ s.patches.length then s
      else s.redirect protect slot target := by
  have known : (s.memory slot).held = .replacement target → slot ∈ s.patches.map Patch.slot := by
    intro held
    apply booked.within slot mapped
    simp [replaced, held, Callee.isReplacement]
  unfold patchSlot
  simp only [alreadyPatched_iff]
  by_cases listed : slot ∈ s.patches.map Patch.slot
  · rw [if_pos (.inr listed), if_pos (.inl listed)]
  · have fresh : ¬((s.memory slot).held = .replacement target ∨ slot ∈ s.patches.map Patch.slot) :=
      fun either => listed (either.elim known id)
    rw [if_neg fresh]
    by_cases full : maxPatches ≤ s.patches.length
    · rw [if_pos full, if_pos (.inr full)]
    · rw [if_neg full, if_neg (fun either => either.elim listed full)]
      unfold writeSlot redirect writable
      have mapped' : slot ∈ slots build
          { s with patches := s.patches ++ [Patch.mk slot (s.memory slot).held] } := mapped
      simp only [mapped', decide_true, Bool.true_and]
      cases protect slot <;> rfl

section

variable {slot : Nat} {target : ClockName}

theorem redirect_held (other : Nat) :
    (s.redirect protect slot target).replaced other =
      ((other == slot && protect slot) || s.replaced other) := by
  unfold redirect replaced
  cases allowed : protect slot with
  | false => simp
  | true =>
      by_cases same : other = slot
      · simp [same, Callee.isReplacement]
      · simp [same]

theorem redirect_resolved (other : Nat) :
    ((s.redirect protect slot target).memory other).resolved = (s.memory other).resolved := by
  unfold redirect
  cases protect slot with
  | false => rfl
  | true =>
      by_cases same : other = slot
      · simp [same]
      · simp [same]

theorem redirect_slots : (s.redirect protect slot target).patches.map Patch.slot =
    s.patches.map Patch.slot ++ [slot] := by
  simp [redirect]

theorem booked_redirect (booked : s.Booked build) (mapped : slot ∈ s.slots build)
    (fresh : slot ∉ s.patches.map Patch.slot) :
    (s.redirect protect slot target).Booked build := by
  have original : s.replaced slot = false := by
    cases held : s.replaced slot with
    | false => rfl
    | true => exact absurd (booked.within slot mapped held) fresh
  constructor
  · rw [redirect_slots]
    apply List.Nodup.append booked.once (List.nodup_singleton slot)
    simpa using fresh
  · simp [redirect, booked.count]
  · intro other inside held
    rw [redirect_slots, List.mem_append, List.mem_singleton]
    rw [redirect_held, Bool.or_eq_true, Bool.and_eq_true, beq_iff_eq] at held
    rcases held with ⟨same, _⟩ | before
    · exact .inr same
    · exact .inl (booked.within other inside before)
  · intro other inside held
    rw [redirect_held, Bool.or_eq_false_iff] at held
    rw [redirect_resolved, ← booked.genuine other inside held.2]
    unfold redirect
    cases allowed : protect slot with
    | false => rfl
    | true =>
        have different : other ≠ slot := by
          intro same
          simp [same, allowed] at held
        simp [different]
  · intro patch listed inside
    rw [redirect_resolved]
    have listed : patch ∈ s.patches ++ [Patch.mk slot (s.memory slot).held] := listed
    rw [List.mem_append, List.mem_singleton] at listed
    rcases listed with before | last
    · exact booked.originals patch before inside
    · rw [last]
      exact booked.genuine slot mapped original
  · exact booked.apart
  · exact booked.restored

theorem complete_redirect (booked : s.Booked build) (mapped : slot ∈ s.slots build)
    (fresh : slot ∉ s.patches.map Patch.slot) :
    (s.redirect protect slot target).Complete build ↔
      s.Complete build ∧ protect slot = true := by
  have original : s.replaced slot = false := by
    cases held : s.replaced slot with
    | false => rfl
    | true => exact absurd (booked.within slot mapped held) fresh
  have same : (s.redirect protect slot target).slots build = s.slots build := rfl
  unfold Complete
  rw [redirect_slots, same]
  constructor
  · intro complete
    have last := (complete slot (by simp)).2
    rw [redirect_held, original] at last
    refine ⟨?_, by simpa using last⟩
    intro other listed
    obtain ⟨inside, held⟩ := complete other (List.mem_append_left _ listed)
    have different : other ≠ slot := fun equal => fresh (equal ▸ listed)
    rw [redirect_held] at held
    exact ⟨inside, by simpa [different] using held⟩
  · intro ⟨complete, allowed⟩ other listed
    rw [List.mem_append, List.mem_singleton] at listed
    rcases listed with before | last
    · obtain ⟨inside, held⟩ := complete other before
      exact ⟨inside, by rw [redirect_held, held, Bool.or_true]⟩
    · rw [last, redirect_held, allowed]
      exact ⟨mapped, by simp⟩

end

/-- A patch keeps the bookkeeping, and leaves a redirected slot for each entry of the list exactly
when the writes it makes go through. -/
theorem patches_run (protect : Nat → Bool) (booked : s.Booked build)
    (entries : List (Nat × ClockName)) (mapped : ∀ entry ∈ entries, entry.1 ∈ s.slots build) :
    (entries.foldl (fun s entry => s.patchSlot build protect entry.1 entry.2) s).Booked build ∧
      ((entries.foldl (fun s entry => s.patchSlot build protect entry.1 entry.2) s).Complete
          build ↔
        s.Complete build ∧
          ∀ slot ∈ freshSlots (s.patches.map Patch.slot) (entries.map Prod.fst),
            protect slot = true) := by
  induction entries generalizing s with
  | nil => simp [booked, freshSlots]
  | cons entry rest ih =>
      have inside := mapped entry List.mem_cons_self
      have others : ∀ other ∈ rest, other.1 ∈ s.slots build :=
        fun other listed => mapped other (List.mem_cons_of_mem _ listed)
      rw [List.foldl_cons, patchSlot_eq booked inside, List.map_cons, freshSlots, List.length_map]
      split
      · exact ih booked others
      · rename_i fresh
        have fresh := not_or.mp fresh
        have later := @ih (s.redirect protect entry.1 entry.2)
          (booked_redirect booked inside fresh.1) others
        rw [redirect_slots, complete_redirect booked inside fresh.1, and_assoc] at later
        rw [List.forall_mem_cons]
        exact later

/-! ## Modules that come and go -/

theorem good_load (booked : s.Booked build) (complete : s.Complete build) (m : Module) :
    (s.load build m).Booked build ∧ (s.load build m).Complete build := by
  unfold load
  split
  · exact ⟨booked, complete⟩
  rename_i free
  have apart : ∀ slot ∈ s.slots build, slot ∉ m.slots build :=
    fun slot inside loaded => free ⟨slot, loaded, inside⟩
  have members : ∀ slot, slot ∈ (s.modules ++ [m]).flatMap (Module.slots build) ↔
      slot ∈ s.slots build ∨ slot ∈ m.slots build := by
    simp [slots]
  refine ⟨⟨booked.once, booked.count, ?_, ?_, ?_, ?_, booked.restored⟩, ?_⟩
  · intro slot inside held
    by_cases loaded : slot ∈ m.slots build
    · simp [replaced, loaded, Callee.isReplacement] at held
    · simp only [replaced, loaded, if_false] at held
      exact booked.within slot (((members slot).mp inside).resolve_right loaded) held
  · intro slot inside held
    by_cases loaded : slot ∈ m.slots build
    · simp [loaded]
    · simp only [replaced, loaded, if_false] at held ⊢
      exact booked.genuine slot (((members slot).mp inside).resolve_right loaded) held
  · intro patch listed _
    have before := (complete patch.slot (List.mem_map_of_mem listed)).1
    simp only [apart patch.slot before, if_false]
    exact booked.originals patch listed before
  · refine List.pairwise_append.mpr ⟨booked.apart, List.pairwise_singleton _ _, ?_⟩
    intro first inside second last slot here there
    rw [List.mem_singleton.mp last] at there
    exact apart slot (List.mem_flatMap.mpr ⟨first, inside, here⟩) there
  · intro slot listed
    obtain ⟨before, held⟩ := complete slot listed
    refine ⟨(members slot).mpr (.inl before), ?_⟩
    simpa [replaced, apart slot before] using held

theorem mem_slots_unload {handle slot : Nat} :
    slot ∈ (s.unload handle).slots build ↔
      ∃ m ∈ s.modules, m.handle ≠ handle ∧ slot ∈ m.slots build := by
  simp [unload, slots, and_assoc]

theorem booked_unload (booked : s.Booked build) (handle : Nat) :
    (s.unload handle).Booked build := by
  have part : ∀ slot ∈ (s.unload handle).slots build, slot ∈ s.slots build := by
    intro slot inside
    obtain ⟨m, loaded, _, here⟩ := mem_slots_unload.mp inside
    exact List.mem_flatMap.mpr ⟨m, loaded, here⟩
  exact ⟨booked.once, booked.count, fun slot inside => booked.within slot (part slot inside),
    fun slot inside => booked.genuine slot (part slot inside),
    fun patch listed inside => booked.originals patch listed (part patch.slot inside),
    booked.apart.filter _, booked.restored⟩

theorem complete_unload (booked : s.Booked build) (complete : s.Complete build) (handle : Nat) :
    (s.unload handle).Complete build ↔ s.Steady build (.unload handle) := by
  constructor
  · intro later m loaded gone slot here
    cases held : s.replaced slot with
    | false => rfl
    | true =>
        have inside : slot ∈ s.slots build := List.mem_flatMap.mpr ⟨m, loaded, here⟩
        obtain ⟨stays, _⟩ := later slot (booked.within slot inside held)
        obtain ⟨other, present, kept, there⟩ := mem_slots_unload.mp stays
        have different : m ≠ other := fun same => kept (same ▸ gone)
        have symmetric : Std.Symm fun first second : Module =>
            (first.slots build).Disjoint (second.slots build) := ⟨fun _ _ apart => apart.symm⟩
        have apart := booked.apart.forall loaded present different
        exact absurd there (apart here)
  · intro steady slot listed
    obtain ⟨inside, held⟩ := complete slot listed
    obtain ⟨m, loaded, here⟩ := List.mem_flatMap.mp inside
    refine ⟨mem_slots_unload.mpr ⟨m, loaded, ?_, here⟩, held⟩
    intro gone
    exact absurd held (by simp [steady m loaded gone slot here])

/-! ## Putting the slots back -/

/-- What putting some slots back leaves of a state: those that can be written lead to what the
loader put there, and nothing else has changed. -/
structure PutsBack (build : Build) (protect : Nat → Bool) (put : List Nat) (s later : Imports) :
    Prop where
  modules : later.modules = s.modules
  resolved : ∀ slot, (later.memory slot).resolved = (s.memory slot).resolved
  replaced : ∀ slot, later.replaced slot = true ↔
    s.replaced slot = true ∧ ¬(slot ∈ put ∧ protect slot = true)
  others : ∀ slot, ¬(slot ∈ put ∧ protect slot = true) → later.memory slot = s.memory slot
  held : ∀ slot, slot ∈ put ∧ protect slot = true →
    (later.memory slot).held = .loaded (s.memory slot).resolved
  restored : (∀ write ∈ s.restored, write.Right) → ∀ write ∈ later.restored, write.Right

theorem putBack_one (protect : Nat → Bool) {patch : Patch} (mapped : patch.slot ∈ s.slots build)
    (held : s.replaced patch.slot = true)
    (original : patch.original = .loaded (s.memory patch.slot).resolved) :
    PutsBack build protect [patch.slot] s (s.putBack build protect patch) := by
  have memory_eq : (s.putBack build protect patch).memory =
      if protect patch.slot then
        Function.update s.memory patch.slot { s.memory patch.slot with held := patch.original }
      else s.memory := by
    unfold putBack writeSlot writable
    cases protect patch.slot <;> simp [mapped]
  have others : ∀ slot, ¬(slot ∈ [patch.slot] ∧ protect slot = true) →
      (s.putBack build protect patch).memory slot = s.memory slot := by
    intro slot out
    rw [memory_eq]
    by_cases same : slot = patch.slot
    · have refused : ¬protect patch.slot = true := fun allowed => out (by simp [same, allowed])
      rw [if_neg refused]
    · split <;> simp [same]
  have here : protect patch.slot = true →
      (s.putBack build protect patch).memory patch.slot =
        { s.memory patch.slot with held := patch.original } := by
    intro allowed
    rw [memory_eq, if_pos allowed, Function.update_self]
  have split_ : ∀ slot, slot ∈ [patch.slot] ∧ protect slot = true →
      slot = patch.slot ∧ protect patch.slot = true := by
    intro slot inside
    have same := List.mem_singleton.mp inside.1
    exact ⟨same, same ▸ inside.2⟩
  constructor
  · unfold putBack writeSlot
    split <;> rfl
  · intro slot
    by_cases inside : slot ∈ [patch.slot] ∧ protect slot = true
    · obtain ⟨same, allowed⟩ := split_ slot inside
      rw [same, here allowed]
    · rw [others slot inside]
  · intro slot
    unfold replaced
    by_cases inside : slot ∈ [patch.slot] ∧ protect slot = true
    · obtain ⟨same, allowed⟩ := split_ slot inside
      rw [same, here allowed, original]
      simp [Callee.isReplacement, allowed]
    · rw [others slot inside]
      simp only [inside, not_false_eq_true, and_true]
  · exact others
  · intro slot inside
    obtain ⟨same, allowed⟩ := split_ slot inside
    rw [same, here allowed, original]
  · intro right write listed
    unfold putBack at listed
    simp only at listed
    split at listed
    · rw [List.mem_append, List.mem_singleton] at listed
      rcases listed with before | last
      · exact right write before
      · rw [last]
        exact ⟨held, original⟩
    · exact right write listed

theorem PutsBack.trans {first second : List Nat} {middle later : Imports}
    (one : PutsBack build protect first s middle)
    (two : PutsBack build protect second middle later) :
    PutsBack build protect (first ++ second) s later := by
  have apart : ∀ slot, ¬(slot ∈ first ++ second ∧ protect slot = true) ↔
      ¬(slot ∈ first ∧ protect slot = true) ∧ ¬(slot ∈ second ∧ protect slot = true) := by
    intro slot
    rw [List.mem_append, or_and_right, not_or]
  constructor
  · rw [two.modules, one.modules]
  · intro slot
    rw [two.resolved, one.resolved]
  · intro slot
    rw [two.replaced, one.replaced, apart, and_assoc]
  · intro slot out
    rw [apart] at out
    rw [two.others slot out.2, one.others slot out.1]
  · intro slot inside
    by_cases last : slot ∈ second ∧ protect slot = true
    · rw [two.held slot last, one.resolved]
    · rw [two.others slot last]
      apply one.held
      rw [List.mem_append] at inside
      exact ⟨inside.1.resolve_right fun there => last ⟨there, inside.2⟩, inside.2⟩
  · exact fun right => two.restored (one.restored right)

theorem putBack_run (patches : List Patch) (once : (patches.map Patch.slot).Nodup)
    (held : ∀ patch ∈ patches, patch.slot ∈ s.slots build ∧ s.replaced patch.slot = true ∧
      patch.original = .loaded (s.memory patch.slot).resolved) :
    PutsBack build protect (patches.map Patch.slot) s
      (patches.foldl (putBack build protect) s) := by
  induction patches generalizing s with
  | nil =>
      exact ⟨rfl, fun _ => rfl, by simp [replaced], fun _ _ => rfl, by simp, fun right => right⟩
  | cons patch rest ih =>
      rw [List.map_cons, List.nodup_cons] at once
      obtain ⟨mapped, redirected, original⟩ := held patch List.mem_cons_self
      have first := putBack_one protect mapped redirected original
      have untouched : ∀ other ∈ rest, (s.putBack build protect patch).memory other.slot =
          s.memory other.slot := by
        intro other listed
        apply first.others
        intro inside
        have same := List.mem_singleton.mp inside.1
        exact once.1 (same ▸ List.mem_map_of_mem listed)
      have later := ih (s := s.putBack build protect patch) once.2 (by
        intro other listed
        have before := held other (List.mem_cons_of_mem _ listed)
        unfold replaced slots at before ⊢
        rw [first.modules, untouched other listed]
        exact before)
      exact first.trans later

theorem putsBack_patches (protect : Nat → Bool) (booked : s.Booked build)
    (complete : s.Complete build) :
    PutsBack build protect (s.patches.reverse.map Patch.slot) s
      (s.patches.reverse.foldl (putBack build protect) s) := by
  apply putBack_run
  · rw [List.map_reverse]
    exact List.nodup_reverse.mpr booked.once
  · intro patch listed
    have listed := List.mem_reverse.mp listed
    obtain ⟨mapped, held⟩ := complete patch.slot (List.mem_map_of_mem listed)
    exact ⟨mapped, held, booked.originals patch listed mapped⟩

/-- A restore clears the list and the counter, so the bookkeeping is right after it if every slot
has been put back. -/
theorem good_unpatch (booked : s.Booked build) (complete : s.Complete build)
    (steady : s.Steady build (.unpatchEverything protect)) :
    (s.unpatchEverything build protect).Booked build ∧
      (s.unpatchEverything build protect).Complete build := by
  have back := putsBack_patches protect booked complete
  have same : (s.unpatchEverything build protect).slots build = s.slots build := by
    unfold unpatchEverything slots
    rw [back.modules]
  have none_ : ∀ slot ∈ s.slots build,
      ¬(s.unpatchEverything build protect).replaced slot = true := by
    intro slot inside held
    obtain ⟨before, out⟩ := (back.replaced slot).mp held
    apply out
    rw [List.map_reverse, List.mem_reverse]
    exact ⟨booked.within slot inside before, steady slot inside before⟩
  refine ⟨⟨List.nodup_nil, rfl, ?_, ?_, ?_, ?_, back.restored booked.restored⟩, ?_⟩
  · intro slot inside held
    rw [same] at inside
    exact absurd held (none_ slot inside)
  · intro slot inside held
    rw [same] at inside
    have resolved := back.resolved slot
    by_cases put : slot ∈ s.patches.reverse.map Patch.slot ∧ protect slot = true
    · have now := back.held slot put
      rw [← resolved] at now
      exact now
    · have kept := back.others slot put
      have before : s.replaced slot = false := by
        unfold replaced at held ⊢
        rw [← kept]
        exact held
      have original := booked.genuine slot inside before
      rw [← kept] at original
      exact original
  · intro patch listed
    exact absurd listed List.not_mem_nil
  · have apart := booked.apart
    rw [← back.modules] at apart
    exact apart
  · intro slot listed
    exact absurd listed List.not_mem_nil

theorem steady_of_unpatch (booked : s.Booked build) (complete : s.Complete build)
    (accurate : (s.unpatchEverything build protect).Accurate build) :
    s.Steady build (.unpatchEverything protect) := by
  intro slot inside held
  have back := putsBack_patches protect booked complete
  have none_ : (s.unpatchEverything build protect).redirected build = ∅ :=
    Finset.card_eq_zero.mp accurate.count.symm
  cases allowed : protect slot with
  | true => rfl
  | false =>
      have still : slot ∈ (s.unpatchEverything build protect).redirected build := by
        rw [mem_redirected]
        constructor
        · unfold unpatchEverything slots
          rw [back.modules]
          exact inside
        · exact (back.replaced slot).mpr ⟨held, by simp [allowed]⟩
      rw [none_] at still
      exact absurd still (Finset.notMem_empty slot)

/-! ## Whole runs -/

theorem targets_mapped (s : Imports) : ∀ entry ∈ s.targets build, entry.1 ∈ s.slots build := by
  intro entry inside
  obtain ⟨m, loaded, inside⟩ := List.mem_flatMap.mp inside
  refine List.mem_flatMap.mpr ⟨m, loaded, ?_⟩
  have inModule : entry ∈ m.targets build := by
    split at inside
    · exact absurd inside List.not_mem_nil
    · exact inside
  unfold Module.targets at inModule
  simp only [List.mem_ite_nil_left, List.mem_flatMap] at inModule
  obtain ⟨_, _, _, _, descriptor, part, _, inside⟩ := inModule
  refine List.mem_flatMap.mpr ⟨descriptor, (List.takeWhile_prefix _).subset part, ?_⟩
  obtain ⟨thunk, listed, named⟩ := List.mem_filterMap.mp inside
  obtain ⟨target, _, same⟩ := Option.map_eq_some_iff.mp named
  rw [← same]
  exact List.mem_map_of_mem listed

theorem patchEverything_spec (protect : Nat → Bool) (booked : s.Booked build)
    (complete : s.Complete build) :
    (s.patchEverything build true protect).Booked build ∧
      ((s.patchEverything build true protect).Complete build ↔
        s.Steady build (.patchEverything true protect)) := by
  have spec := patches_run protect booked (s.targets build) s.targets_mapped
  rw [← patchEverything_eq] at spec
  refine ⟨spec.1, spec.2.trans ?_⟩
  simp only [complete, true_and, Steady, forall_const]

theorem good_step (booked : s.Booked build) (complete : s.Complete build) (event : ImportEvent)
    (steady : s.Steady build event) :
    (s.step build event).Booked build ∧ (s.step build event).Complete build := by
  cases event with
  | load m => exact good_load booked complete m
  | unload handle =>
      exact ⟨booked_unload booked handle, (complete_unload booked complete handle).mpr steady⟩
  | patchEverything snapshot protect =>
      cases snapshot with
      | false => exact ⟨booked, complete⟩
      | true =>
          have spec := patchEverything_spec protect booked complete
          exact ⟨spec.1, spec.2.mpr steady⟩
  | unpatchEverything protect => exact good_unpatch booked complete steady

theorem accurate_step_iff (booked : s.Booked build) (complete : s.Complete build)
    (event : ImportEvent) : (s.step build event).Accurate build ↔ s.Steady build event := by
  constructor
  · intro accurate
    cases event with
    | load m => trivial
    | unload handle =>
        have later := booked_unload booked handle
        exact (complete_unload booked complete handle).mp (later.accurate_iff_complete.mp accurate)
    | patchEverything snapshot protect =>
        cases snapshot with
        | false => exact fun taken => absurd taken (by decide)
        | true =>
            have spec := patchEverything_spec protect booked complete
            exact spec.2.mp (spec.1.accurate_iff_complete.mp accurate)
    | unpatchEverything protect => exact steady_of_unpatch booked complete accurate
  · intro steady
    have later := good_step booked complete event steady
    exact later.1.accurate_iff_complete.mpr later.2

theorem good_initial : initial.Booked build ∧ initial.Complete build := by
  refine ⟨⟨List.nodup_nil, rfl, ?_, ?_, ?_, List.Pairwise.nil, ?_⟩, ?_⟩
  · exact fun slot inside => absurd inside List.not_mem_nil
  · exact fun slot inside => absurd inside List.not_mem_nil
  · exact fun patch listed => absurd listed List.not_mem_nil
  · exact fun write listed => absurd listed List.not_mem_nil
  · exact fun slot listed => absurd listed List.not_mem_nil

/-- After each step of a run the counter is the number of redirected slots, and only redirected
slots have been put back, to what they held first, exactly when no redirected slot goes away with
its module and no write is refused. -/
theorem accurate_iff (build : Build) (events : List ImportEvent) :
    (∀ done, done <+: events → (run (step build) initial done).Accurate build) ↔
      Follows (step build) (Steady build) initial events := by
  have known : ∀ s : Imports, s.Booked build ∧ s.Complete build → s.Accurate build :=
    fun s good => good.1.accurate_iff_complete.mpr good.2
  apply forall_prefix_iff_of_invariant known
  · exact fun s event good steady => good_step good.1 good.2 event steady
  · exact fun s event good => accurate_step_iff good.1 good.2 event
  · exact good_initial

def x64 : Build := { pointerSize := 8, self := 0x5000 }

/-- A module at one place, with one import. -/
def importing (name : Text) (address : Nat) : Module where
  handle := 0x10000
  szModule := "game.dll".toList
  magic := dosSignature
  signature := ntSignature
  directoryAddress := 0x2000
  directorySize := 40
  descriptors :=
    [{ name := 0x2100, firstThunk := 0x3000, originalFirstThunk := 0x2800,
       originals := [some name] }]
  resolved := fun _ => address

/-- The page of the slot cannot be made writable. -/
def refusedWrite : List ImportEvent :=
  [.load (importing "GetTickCount".toList 0x7ff0), .patchEverything true fun _ => false]

/-- The module is unloaded, and another one with another import takes its place. -/
def unloadedBetween : List ImportEvent :=
  [.load (importing "GetTickCount".toList 0x7ff0), .patchEverything true fun _ => true,
    .unload 0x10000, .load (importing "Sleep".toList 0x7ee0),
    .unpatchEverything fun _ => true]

/-- The refused write is counted, and the other module's import is overwritten. -/
theorem accurate_fails :
    ¬ (run (step x64) initial refusedWrite).Accurate x64 ∧
      ¬ (run (step x64) initial unloadedBetween).Accurate x64 := by
  constructor
  · intro accurate
    exact absurd accurate.count (by decide +kernel)
  · intro accurate
    have overwritten : Restored.mk ⟨0x7ee0, .loaded 0x7ee0⟩ (.loaded 0x7ff0) ∈
        (run (step x64) initial unloadedBetween).restored := by decide +kernel
    exact absurd (accurate.restored _ overwritten).1 (by decide)

end Imports

end PointerLab.SpeedHook
