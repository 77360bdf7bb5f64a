import PointerLab.PointerScannerSearch

set_option autoImplicit false

/- A pointer scan that nothing cuts short finds one chain for every slot of a module that
leads to the target, each of the least length. -/
namespace PointerLab.PointerScanner

open Domain Levels

/-- Some module holds the address. -/
def InModule (modules : List ModuleInfo) (address : Nat) : Prop :=
  ∃ module ∈ modules, contains module address = true

/-- Some entry of the frontier is within reach of the pointer. -/
def NearAny (options : PointerScanOptions) (frontier : List Candidate) (pointer : Nat) : Prop :=
  ∃ source ∈ frontier, Near options pointer source.address

/-- What a depth has done to the progress when it has looked at the slots `looked`. -/
structure Swept (modules : List ModuleInfo) (options : PointerScanOptions)
    (frontier : List Candidate) (hops : Nat) (before : Progress) (looked : List (Nat × Nat))
    (after : Progress) : Prop where
  seen : ∀ address, address ∈ after.seen ↔
    address ∈ before.seen ∨ ∃ pointer, (address, pointer) ∈ looked ∧
      NearAny options frontier pointer
  next : after.truncated = false → ∀ address,
    (∃ candidate ∈ after.next, candidate.address = address) ↔
      address ∉ before.seen ∧ address ∈ after.seen
  lengths : ∀ candidate ∈ after.next, candidate.offsets.length = hops + 1
  fresh : ∀ chain ∈ after.results, chain ∈ before.results ∨
    chain.scanTimeBase ∉ before.seen ∧ InModule modules chain.scanTimeBase ∧
      chain.offsets.length = hops + 1
  kept : ∀ chain ∈ before.results, chain ∈ after.results
  listed : after.truncated = false → ∀ address ∈ after.seen, address ∉ before.seen →
    InModule modules address → ∃ chain ∈ after.results, chain.scanTimeBase = address
  known : ∀ chain ∈ after.results, chain.scanTimeBase ∈ after.seen
  once : (after.results.map (·.scanTimeBase)).Nodup
  truncated : before.truncated = true → after.truncated = true

variable {modules : List ModuleInfo} {options : PointerScanOptions} {frontier : List Candidate}
  {hops : Nat} {before after : Progress} {looked : List (Nat × Nat)}

theorem Swept.start (known : ∀ chain ∈ before.results, chain.scanTimeBase ∈ before.seen)
    (once : (before.results.map (·.scanTimeBase)).Nodup) :
    Swept modules options frontier hops before [] { before with next := [] } where
  seen := by simp
  next := by simp
  lengths := by simp
  fresh := fun _ inside => Or.inl inside
  kept := fun _ inside => inside
  listed := fun _ _ inside new => absurd inside new
  known := known
  once := once
  truncated := id

theorem looked_append {place address pointer : Nat} :
    (∃ value, (place, value) ∈ looked ++ [(address, pointer)] ∧ NearAny options frontier value) ↔
      (∃ value, (place, value) ∈ looked ∧ NearAny options frontier value) ∨
        place = address ∧ NearAny options frontier pointer := by
  constructor
  · rintro ⟨value, inside, near⟩
    rcases List.mem_append.mp inside with old | new
    · exact Or.inl ⟨value, old, near⟩
    · obtain ⟨rfl, rfl⟩ := Prod.mk.inj (List.mem_singleton.mp new)
      exact Or.inr ⟨rfl, near⟩
  · rintro (⟨value, inside, near⟩ | ⟨rfl, near⟩)
    · exact ⟨value, List.mem_append_left _ inside, near⟩
    · exact ⟨pointer, List.mem_append_right _ List.mem_cons_self, near⟩

/-- A slot that adds nothing. -/
theorem Swept.skip (swept : Swept modules options frontier hops before looked after)
    {address pointer : Nat}
    (nothing : address ∈ after.seen ∨ ∀ source ∈ frontier, ¬ Near options pointer source.address) :
    Swept modules options frontier hops before (looked ++ [(address, pointer)]) after :=
  { swept with
    seen := by
      intro place
      rw [looked_append, ← or_assoc, ← swept.seen, iff_self_or]
      rintro ⟨rfl, source, inFrontier, near⟩
      rcases nothing with seen | far
      · exact seen
      · exact absurd near (far source inFrontier) }

/-- A slot that joins. -/
theorem Swept.join (swept : Swept modules options frontier hops before looked after)
    {pointer : Nat} (candidate : Candidate) (new : candidate.address ∉ after.seen)
    (near : NearAny options frontier pointer) (length : candidate.offsets.length = hops + 1) :
    Swept modules options frontier hops before (looked ++ [(candidate.address, pointer)])
      (join modules options candidate after) := by
  have unseen : candidate.address ∉ before.seen := fun inside =>
    new ((swept.seen _).mpr (Or.inl inside))
  have root {chain : PointerChain} (inside : chain ∈ chainsOf modules candidate) :
      chain.scanTimeBase = candidate.address ∧ InModule modules candidate.address ∧
        chain.offsets.length = hops + 1 := by
    obtain ⟨module, listed, owns, rfl⟩ := mem_chainsOf inside
    exact ⟨chainOf_base owns, ⟨module, listed, owns⟩, length⟩
  constructor
  case seen =>
    intro place
    rw [join_seen, looked_append, List.mem_cons, swept.seen]
    constructor
    · rintro (rfl | old | old)
      · exact Or.inr (Or.inr ⟨rfl, near⟩)
      · exact Or.inl old
      · exact Or.inr (Or.inl old)
    · rintro (old | old | ⟨rfl, _⟩)
      · exact Or.inr (Or.inl old)
      · exact Or.inr (Or.inr old)
      · exact Or.inl rfl
  case next =>
    intro going place
    obtain ⟨next, _, before_⟩ := join_going going
    rw [next, join_seen]
    simp only [List.mem_append, List.mem_cons, List.not_mem_nil, or_false, or_and_right, exists_or,
      exists_eq_left, swept.next before_]
    constructor
    · rintro (⟨outside, inside⟩ | rfl)
      · exact ⟨outside, Or.inr inside⟩
      · exact ⟨unseen, Or.inl rfl⟩
    · rintro ⟨outside, rfl | inside⟩
      · exact Or.inr rfl
      · exact Or.inl ⟨outside, inside⟩
  case lengths =>
    intro entry inside
    cases mem_join_next inside with
    | inl old => exact swept.lengths entry old
    | inr last => exact last ▸ length
  case fresh =>
    intro chain inside
    cases mem_join_results inside with
    | inl old => exact swept.fresh chain old
    | inr added =>
        obtain ⟨base, owned, many⟩ := root added
        exact Or.inr ⟨base ▸ unseen, base ▸ owned, many⟩
  case kept =>
    intro chain inside
    exact subset_join_results candidate (swept.kept chain inside)
  case listed =>
    intro going place inside outside owned
    obtain ⟨_, results, before_⟩ := join_going going
    rw [results]
    rw [join_seen] at inside
    rcases List.mem_cons.mp inside with rfl | old
    · obtain ⟨module, found⟩ : ∃ module, modules.find?
          (fun module => contains module candidate.address) = some module := by
        obtain ⟨module, listed, owns⟩ := owned
        exact Option.isSome_iff_exists.mp (List.find?_isSome.mpr ⟨module, listed, owns⟩)
      have added : chainOf module candidate ∈ chainsOf modules candidate := by
        simp only [chainsOf, found, List.mem_singleton]
      exact ⟨_, List.mem_append_right _ added, (root added).1⟩
    · obtain ⟨chain, known, base⟩ := swept.listed before_ place old outside owned
      exact ⟨chain, List.mem_append_left _ known, base⟩
  case known =>
    intro chain inside
    rw [join_seen]
    cases mem_join_results inside with
    | inl old => exact List.mem_cons_of_mem _ (swept.known chain old)
    | inr added =>
        rw [(root added).1]
        exact List.mem_cons_self
  case once =>
    have added : ((after.results ++ chainsOf modules candidate).map (·.scanTimeBase)).Nodup := by
      rw [List.map_append, List.nodup_append]
      refine ⟨swept.once, ?_, ?_⟩
      · unfold chainsOf
        split
        · exact List.nodup_nil
        · exact List.nodup_singleton _
      · rintro _ old _ fresh rfl
        obtain ⟨chain, inside, same⟩ := List.mem_map.mp old
        obtain ⟨other, inOther, base⟩ := List.mem_map.mp fresh
        rw [← (root inOther).1, base, ← same] at new
        exact new (swept.known chain inside)
    cases join_results modules options candidate after with
    | inl grown => exact grown ▸ added
    | inr same => exact same ▸ swept.once
  case truncated =>
    intro stopped
    exact join_truncated (swept.truncated stopped)

/-- A whole depth. -/
theorem Swept.sweep (swept : Swept modules options frontier hops before looked after)
    (lengths : ∀ source ∈ frontier, source.offsets.length = hops) (found : List (Nat × Nat)) :
    Swept modules options frontier hops before (looked ++ found)
      (found.foldl (visitSlot modules options (sortTargets frontier)) after) := by
  induction found generalizing looked after with
  | nil => simpa only [List.append_nil, List.foldl_nil] using swept
  | cons slot rest ih =>
      obtain ⟨address, pointer⟩ := slot
      rw [List.foldl_cons, ← List.singleton_append, ← List.append_assoc]
      apply ih
      rcases visitSlot_cases modules options frontier after address
        pointer with ⟨same, nothing⟩ | ⟨source, inFrontier, new, near, joined⟩
      · rw [same]
        exact swept.skip nothing
      · rw [joined]
        refine swept.join { address, offsets := _ } new ⟨source, inFrontier, near⟩ ?_
        rw [List.length_cons, lengths source inFrontier]

/-- Between two depths of a scan that nothing has cut short: `hops` levels are done, and every
seen slot of a module has its one chain, of the least length. -/
structure AtDepth (view : TargetView) (options : PointerScanOptions) (hops : Nat)
    (frontier : List Candidate) (progress : Progress) : Prop where
  level : Level (Hop view options) options.target hops (· ∈ progress.seen)
    (fun address => ∃ candidate ∈ frontier, candidate.address = address)
  lengths : ∀ source ∈ frontier, source.offsets.length = hops
  chains : ∀ chain ∈ progress.results,
    Away (Hop view options) options.target chain.offsets.length chain.scanTimeBase ∧
      chain.scanTimeBase ∈ progress.seen ∧ chain.scanTimeBase ≠ options.target ∧
        InModule view.modules chain.scanTimeBase
  listed : ∀ address ∈ progress.seen, address ≠ options.target →
    InModule view.modules address → ∃ chain ∈ progress.results, chain.scanTimeBase = address
  once : (progress.results.map (·.scanTimeBase)).Nodup

theorem AtDepth.start (view : TargetView) (options : PointerScanOptions) :
    AtDepth view options 0 [{ address := options.target, offsets := [] }]
      { seen := [options.target] } where
  level := by
    have start := @Level.start _ (Hop view options) options.target
    refine ⟨fun node => ?_, fun node => ?_⟩
    · rw [List.mem_singleton]
      exact start.seen node
    · rw [← start.frontier]
      simp [eq_comm]
  lengths := by simp
  chains := by simp
  listed := fun address inside other => absurd (List.mem_singleton.mp inside) other
  once := List.nodup_nil

/-- One more depth. -/
theorem AtDepth.next {view : TargetView} (static : Static view)
    (atDepth : AtDepth view options hops frontier before)
    (swept : Swept view.modules options frontier hops before (slots view .never hops) after)
    (going : after.truncated = false) :
    AtDepth view options (hops + 1) after.next after := by
  have grown : ∀ address, address ∈ after.seen ↔
      address ∈ before.seen ∨ ∃ candidate ∈ after.next, candidate.address = address := by
    intro address
    rw [swept.next going]
    constructor
    · intro inside
      by_cases old : address ∈ before.seen
      · exact Or.inl old
      · exact Or.inr ⟨old, inside⟩
    · rintro (old | ⟨_, inside⟩)
      · exact (swept.seen address).mpr (Or.inl old)
      · exact inside
  have level : Level (Hop view options) options.target (hops + 1) (· ∈ after.seen)
      (fun address => ∃ candidate ∈ after.next, candidate.address = address) := by
    refine atDepth.level.next (fun address => ?_) grown
    rw [swept.next going, swept.seen]
    refine and_congr_right fun unseen => ?_
    simp only [unseen, false_or, mem_slots static]
    constructor
    · rintro ⟨pointer, slot, source, inFrontier, near⟩
      exact ⟨source.address, ⟨pointer, slot, near⟩, source, inFrontier, rfl⟩
    · rintro ⟨_, ⟨pointer, slot, near⟩, source, inFrontier, rfl⟩
      exact ⟨pointer, slot, source, inFrontier, near⟩
  have targetSeen : options.target ∈ before.seen :=
    (atDepth.level.seen _).mpr ⟨0, Nat.zero_le _, away_zero.mpr rfl⟩
  refine ⟨level, swept.lengths, ?_, ?_, swept.once⟩
  · intro chain inside
    have seen := swept.known chain inside
    rcases swept.fresh chain inside with old | ⟨new, owned, length⟩
    · obtain ⟨away, _, other, owned⟩ := atDepth.chains chain old
      exact ⟨away, seen, other, owned⟩
    · have away := (level.frontier _).mp ((swept.next going _).mpr ⟨new, seen⟩)
      refine ⟨length ▸ away, seen, fun same => ?_, owned⟩
      exact new (same ▸ targetSeen)
  · intro address inside other owned
    by_cases old : address ∈ before.seen
    · obtain ⟨chain, known, base⟩ := atDepth.listed address old other owned
      exact ⟨chain, swept.kept chain known, base⟩
    · exact swept.listed going address inside old owned

/-- Once a limit has dropped something, the scan says so to its end. -/
theorem sweep_truncated (found : List (Nat × Nat)) (stopped : before.truncated = true) :
    (found.foldl (visitSlot modules options (sortTargets frontier)) before).truncated = true := by
  induction found generalizing before with
  | nil => exact stopped
  | cons slot rest ih =>
      obtain ⟨address, pointer⟩ := slot
      rw [List.foldl_cons]
      apply ih
      rcases visitSlot_cases modules options frontier before address
        pointer with ⟨same, _⟩ | ⟨source, _, _, _, joined⟩
      · rw [same]
        exact stopped
      · rw [joined]
        exact join_truncated stopped

theorem scanDepths_truncated {view : TargetView} {cancel : Cancel} {remaining depth : Nat}
    (stopped : before.truncated = true) :
    (scanDepths modules options view cancel remaining depth frontier before).truncated = true := by
  induction remaining generalizing depth frontier before with
  | zero => exact stopped
  | succ remaining ih =>
      simp only [scanDepths]
      split
      · exact stopped
      · have swept := @sweep_truncated modules options frontier { before with next := [] }
          (slots view cancel depth) stopped
        split
        · exact swept
        · exact ih swept

theorem scanDepths_never (view : TargetView) (remaining depth : Nat) :
    scanDepths modules options view .never (remaining + 1) depth frontier before =
      let after := (slots view .never depth).foldl
        (visitSlot modules options (sortTargets frontier)) { before with next := [] }
      if after.next.isEmpty then after
      else scanDepths modules options view .never remaining (depth + 1) after.next after :=
  rfl

/-- All the depths: what has been seen is what is within reach. -/
theorem scanDepths_exact {view : TargetView} (static : Static view) {remaining : Nat}
    (atDepth : AtDepth view options hops frontier before)
    (going : (scanDepths view.modules options view .never remaining hops frontier
      before).truncated = false) :
    ∃ last final, AtDepth view options last final
        (scanDepths view.modules options view .never remaining hops frontier before) ∧
      ∀ address, address ∈ (scanDepths view.modules options view .never remaining hops frontier
          before).seen ↔
        ∃ least ≤ hops + remaining, Away (Hop view options) options.target least address := by
  induction remaining generalizing hops frontier before with
  | zero => exact ⟨hops, frontier, atDepth, atDepth.level.seen⟩
  | succ remaining ih =>
      have begun : Swept view.modules options frontier hops before [] { before with next := [] } :=
        Swept.start (fun chain inside => (atDepth.chains chain inside).2.1) atDepth.once
      have swept := begun.sweep atDepth.lengths (slots view .never hops)
      rw [List.nil_append] at swept
      rw [scanDepths_never] at going ⊢
      dsimp only at going ⊢
      generalize (slots view .never hops).foldl
        (visitSlot view.modules options (sortTargets frontier)) { before with next := [] } = after
        at going swept ⊢
      by_cases empty : after.next.isEmpty = true
      · rw [if_pos empty] at going ⊢
        have next := atDepth.next static swept going
        refine ⟨hops + 1, after.next, next, fun address => ?_⟩
        rw [next.level.seen]
        have none_ : ∀ address, ¬ ∃ candidate ∈ after.next, candidate.address = address := by
          rintro address ⟨candidate, inside, _⟩
          rw [List.isEmpty_iff.mp empty] at inside
          contradiction
        constructor
        · rintro ⟨least, within, away⟩
          exact ⟨least, by omega, away⟩
        · rintro ⟨least, within, away⟩
          by_cases early : least ≤ hops + 1
          · exact ⟨least, early, away⟩
          · exact absurd away (next.level.exhausted none_ (by omega) address)
      · rw [if_neg empty] at going ⊢
        have untouched : after.truncated = false := by
          by_contra stopped
          rw [scanDepths_truncated (by simpa using stopped)] at going
          contradiction
        obtain ⟨last, final, exact_, seen⟩ := ih (atDepth.next static swept untouched) going
        refine ⟨last, final, exact_, fun address => ?_⟩
        rw [seen, Nat.add_right_comm, Nat.add_assoc]

/-- Every chain that a scan reports, even one cut short, leads from its base to the target. A
scan that is neither cancelled nor stopped by a limit reports one chain for each address of a
module, other than the target, from which the target is reached in at most `maxDepth` hops
through aligned slots, and none for any other; its length is the least number of hops. -/
theorem run_exact {view : TargetView} (static : Static view)
    (inSpace : options.target < addressSpace) (cancel : Cancel) :
    (∀ chain ∈ (run view options cancel).1.results,
      Path view options chain.scanTimeBase chain.offsets) ∧
    ((run view options .never).1.truncated = false →
      ((run view options .never).1.results.map (·.scanTimeBase)).Nodup ∧
      (∀ address, (∃ chain ∈ (run view options .never).1.results, chain.scanTimeBase = address) ↔
        InModule view.modules address ∧ address ≠ options.target ∧
          ∃ hops ≤ options.maxDepth, Reaches (Hop view options) options.target hops address) ∧
      ∀ chain ∈ (run view options .never).1.results,
        Away (Hop view options) options.target chain.offsets.length chain.scanTimeBase) := by
  constructor
  · intro chain inside
    refine (run_sound (fun depth slot found => ?_) inSpace inside).1
    obtain ⟨isSlot, bounded⟩ := slot_of_mem static found
    exact ⟨isSlot.1, bounded⟩
  · intro going
    obtain ⟨last, final, atDepth, seen⟩ := scanDepths_exact static (AtDepth.start view options) going
    refine ⟨atDepth.once, fun address => ?_, fun chain inside => (atDepth.chains chain inside).1⟩
    constructor
    · rintro ⟨chain, inside, rfl⟩
      obtain ⟨_, known, other, owned⟩ := atDepth.chains chain inside
      obtain ⟨least, within, away⟩ := (seen _).mp known
      exact ⟨owned, other, least, by omega, away.1⟩
    · rintro ⟨owned, other, hops, within, reaches⟩
      obtain ⟨least, fewer, away⟩ := exists_away reaches
      exact atDepth.listed address ((seen address).mpr ⟨least, by omega, away⟩) other owned

/-- One pointer in a module, one outside of it, and a target. -/
def pointedView : TargetView where
  modules := [{ base := 0x10000, size := 8, name := [97] }]
  regions := [{ base := 0x10000, size := 8, readable := true },
    { base := 0x20000, size := 16, readable := true }]
  memory := fun address =>
    if 0x20000 ≤ address then
      [0, 0, 0, 0, 0, 0, 0, 0, 0, 0, 3, 0, 0, 0, 0, 0][address - 0x20000]?
    else if 0x10000 ≤ address then [0, 0, 2, 0, 0, 0, 0, 0][address - 0x10000]?
    else none

theorem pointedView_static : Static pointedView where
  attached := rfl
  whole := by decide
  aligned := by decide
  bounded := by decide

theorem pointedView_exact :
    (run pointedView { target := 0x30010 } .never).1.results.map (·.scanTimeBase) = [0x10000] ∧
      ∀ chain ∈ (run pointedView { target := 0x30010 } .never).1.results,
        Path pointedView { target := 0x30010 } chain.scanTimeBase chain.offsets ∧
        Away (Hop pointedView { target := 0x30010 }) 0x30010 chain.offsets.length
          chain.scanTimeBase := by
  obtain ⟨sound, complete⟩ := @run_exact { target := 0x30010 } _ pointedView_static (by decide)
    .never
  obtain ⟨_, _, shortest⟩ := complete (by decide)
  exact ⟨by decide, fun chain inside => ⟨sound chain inside, shortest chain inside⟩⟩

/-- One hop through a pointer at any readable address. -/
def AnyHop (view : TargetView) (options : PointerScanOptions) (address next : Nat) : Prop :=
  ∃ pointer, TargetView.readPointer view address = .ok pointer ∧ Near options pointer next

/-- A pointer in a module to a pointer that is not aligned. -/
def unalignedView : TargetView where
  modules := [{ base := 0x10000, size := 8, name := [97] }]
  regions := [{ base := 0x10000, size := 8, readable := true },
    { base := 0x20000, size := 16, readable := true }]
  memory := fun address =>
    if 0x20000 ≤ address then
      [0, 0, 0, 3, 0, 0, 0, 0, 0, 0, 0, 0, 0, 0, 0, 0][address - 0x20000]?
    else if 0x10000 ≤ address then [1, 0, 2, 0, 0, 0, 0, 0][address - 0x10000]?
    else none

/-- The target is two hops from an aligned slot of the module, and the scan, which nothing
cuts short, reports nothing. -/
theorem unaligned_unreported :
    Static unalignedView ∧ InModule unalignedView.modules 0x10000 ∧
      Slot unalignedView 0x10000 0x20001 ∧
      Reaches (AnyHop unalignedView { target := 0x30000, maxDepth := 2, maxOffset := 0 }) 0x30000 2
        0x10000 ∧
      (run unalignedView { target := 0x30000, maxDepth := 2, maxOffset := 0 } .never).1.truncated =
        false ∧
      (run unalignedView { target := 0x30000, maxDepth := 2, maxOffset := 0 } .never).1.results =
        [] := by
  refine ⟨⟨rfl, by decide, by decide, by decide⟩, by unfold InModule; decide, ?_, ?_, by decide,
    by decide⟩
  · exact ⟨by decide, by decide, { base := 0x10000, size := 8, readable := true }, by decide,
      by decide, by decide, by decide⟩
  · exact ⟨0x20001, ⟨0x20001, by decide, by unfold Near; decide⟩, 0x30000,
      ⟨0x30000, by decide, by unfold Near; decide⟩, rfl⟩

end PointerLab.PointerScanner
