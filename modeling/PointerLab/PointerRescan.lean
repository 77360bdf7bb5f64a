import PointerLab.PointerScannerSearch

set_option autoImplicit false

/- `PointerScanJob::runFilter`: narrowing the chains of a scan to those that still lead to
an address. -/
namespace PointerLab.PointerScanner

open Domain Sweep TargetView

/-- The test a chain has to pass. -/
def stillResolves (view : TargetView) (narrow : WideText → Text) (newTarget : Nat)
    (chain : PointerChain) : Bool :=
  match resolveChain view narrow chain with
  | .error _ => false
  | .ok resolved => resolved == newTarget

/-- `PointerScanJob::runFilter`: the chains it leaves, and what it says. -/
def runFilter (view : TargetView) (narrow : WideText → Text) (newTarget : Nat)
    (cancel : CancelFlag) (results : List PointerChain) : List PointerChain × String :=
  if !view.attached then
    (results, "A rescan needs an attached process. The chains were left alone.")
  else if results.isEmpty then
    (results, "There are no chains to narrow. Run a pointer scan first.")
  else
    let examined := results.zipIdx.takeWhile fun entry => !cancel.round entry.2
    let kept := (examined.map (·.1)).filter (stillResolves view narrow newTarget)
    if cancel.done then (results, "Rescan cancelled. The chains were left alone.")
    else
      (kept, "Rescan complete: " ++ toString kept.length ++ " of " ++ toString results.length ++
        " chain(s) still resolve to " ++ hexString newTarget)

/-- Looking the chain's module up by name finds a module where the chain was found. -/
def Located (modules : List ModuleInfo) (chain : PointerChain) : Prop :=
  chain.moduleName ≠ [] ∧ chain.moduleBase ≠ 0 ∧
    ∃ module, (modules.find? fun module => sameName module.name chain.moduleName) = some module ∧
      module.base = chain.moduleBase

/-- Every module has a name that no module at another base has, in any case. -/
def Distinct (modules : List ModuleInfo) : Prop :=
  ∀ module ∈ modules, module.name ≠ [] ∧ module.base ≠ 0 ∧
    ∀ other ∈ modules, sameName other.name module.name = true → other.base = module.base

variable {view : TargetView} {options : PointerScanOptions} {narrow : WideText → Text}

theorem sameName_self (name : WideText) : sameName name name = true := by
  simp only [sameName, beq_self_eq_true]

theorem located_of_distinct {modules : List ModuleInfo} {chain : PointerChain}
    (distinct : Distinct modules)
    (rooted : ∃ module ∈ modules, chain.moduleName = module.name ∧ chain.moduleBase = module.base) :
    Located modules chain := by
  obtain ⟨module, listed, name, base⟩ := rooted
  obtain ⟨named, placed, alone⟩ := distinct module listed
  refine ⟨name ▸ named, base ▸ placed, ?_⟩
  have some_ : (modules.find? fun module => sameName module.name chain.moduleName).isSome = true :=
    List.find?_isSome.mpr ⟨module, listed, name ▸ sameName_self _⟩
  obtain ⟨first, found⟩ := Option.isSome_iff_exists.mp some_
  have same := List.find?_some
    (p := fun module : ModuleInfo => sameName module.name chain.moduleName) found
  exact ⟨first, found, base ▸ alone first (List.mem_of_find?_eq_some found) (name ▸ same)⟩

theorem slots_unattached (detached : view.attached = false) (cancel : Cancel) (depth : Nat) :
    slots view cancel depth = [] := by
  have chunk (cancelled : Nat → Bool) (region : MemoryRegion) (offset : Nat) :
      slotsOfChunk view cancelled region offset = [] := by
    simp only [slotsOfChunk, readBytes, detached, Bool.not_false, ↓reduceIte, fail]
  simp only [slots, List.flatMap_eq_nil_iff]
  intro region _
  unfold slotsOfRegion
  split
  · rfl
  · simp only [chunk, List.flatMap_eq_nil_iff, implies_true]

theorem scanDepths_unattached (detached : view.attached = false) (cancel : Cancel)
    (modules : List ModuleInfo) (remaining depth : Nat) (frontier : List Candidate)
    (progress : Progress) :
    (scanDepths modules options view cancel remaining depth frontier progress).results =
      progress.results := by
  induction remaining generalizing depth frontier progress with
  | zero => rfl
  | succ remaining ih =>
      simp only [scanDepths, slots_unattached detached, List.foldl_nil]
      split
      · rfl
      · rfl

/-- What the slots of a depth hold can be read again, whatever the regions say. -/
theorem answered_of_mem
    (inSpace : ∀ address, addressSpace ≤ address → view.memory address = none) {cancel : Cancel}
    {depth : Nat} {slot : Nat × Nat} (inside : slot ∈ slots view cancel depth) :
    readPointer view slot.1 = .ok slot.2 ∧ slot.1 < addressSpace := by
  cases attached : view.attached with
  | false =>
      rw [slots_unattached attached] at inside
      contradiction
  | true =>
      simp only [slots, List.mem_flatMap] at inside
      obtain ⟨region, _, inRegion⟩ := inside
      unfold slotsOfRegion at inRegion
      split at inRegion
      · contradiction
      · obtain ⟨offset, _, inChunk⟩ := List.mem_flatMap.mp inRegion
        obtain ⟨address, pointer⟩ := slot
        obtain ⟨_, _, _, _, answered⟩ := mem_slotsOfChunk attached inChunk
        refine ⟨answered, ?_⟩
        by_contra outside
        have positive := pointerSize_pos view.bitness
        have nothing : readable view.memory address (pointerSize view.bitness) = [] := by
          rw [List.eq_nil_iff_length_eq_zero]
          by_contra some_
          have first := (@lt_readable_length view.memory address (pointerSize view.bitness) 0).mp
            (by omega)
          exact first.2 0 (Nat.le_refl 0) (inSpace _ (by omega))
        have refused : readPointer view address = fail "" 299 := by
          have width : (pointerSize view.bitness != 0) = true := by
            rw [bne_iff_ne]
            omega
          simp only [readPointer, readBytes, attached, Bool.not_true, Bool.false_eq_true, ↓reduceIte,
            nothing, List.isEmpty_nil, width, Bool.and_self, fail]
        rw [refused] at answered
        contradiction

/-- A reported chain resolves wherever its module is found again. -/
theorem resolveChain_of_located (attached : view.attached = true) {chain : PointerChain}
    (reported : Reported view view.modules options chain) (located : Located view.modules chain) :
    resolveChain view narrow chain = .ok options.target := by
  obtain ⟨path, bounded, _⟩ := reported
  obtain ⟨named, placed, module, found, base⟩ := located
  have rooted : chain.moduleRooted = true := by
    simpa only [PointerChain.moduleRooted, Bool.not_eq_true', List.isEmpty_eq_false_iff] using named
  have start : (chain.moduleBase + chain.moduleOffset) % addressSpace = chain.scanTimeBase :=
    Nat.mod_eq_of_lt bounded
  have placed' : (chain.moduleBase == 0) = false := beq_eq_false_iff_ne.mpr placed
  simp only [resolveChain, attached, PointerChain.valid, rooted, found, base, placed', start,
    Bool.true_or, Bool.not_true, Bool.and_false, Bool.false_eq_true, ↓reduceIte]
  exact path.1

/-- A rescan leaves all the chains or exactly those that still resolve. -/
theorem runFilter_cases (view : TargetView) (narrow : WideText → Text) (newTarget : Nat)
    (stop : CancelFlag) (results : List PointerChain) :
    (runFilter view narrow newTarget stop results).1 = results ∨
      (runFilter view narrow newTarget stop results).1 =
        results.filter (stillResolves view narrow newTarget) := by
  unfold runFilter
  split
  · exact Or.inl rfl
  · split
    · exact Or.inl rfl
    · dsimp only
      split
      · exact Or.inl rfl
      · rename_i going
        have open_ : stop.done = false := by simpa using going
        have every : (results.zipIdx.takeWhile fun entry => !stop.round entry.2) = results.zipIdx :=
          List.takeWhile_eq_self_iff.mpr fun entry _ => by rw [CancelFlag.going open_]; rfl
        rw [every, List.zipIdx_map_fst]
        exact Or.inr rfl

/-- A rescan for the scanned address, wherever scan and rescan are cut short: a chain whose
module is found again by its name resolves to that address and stays. Where all modules
have names of their own nothing is discarded. -/
theorem rescan_keeps
    (memoryInSpace : ∀ address, addressSpace ≤ address → view.memory address = none)
    (inSpace : options.target < addressSpace) (narrow : WideText → Text) (cancel : Cancel)
    (stop : CancelFlag) :
    (∀ chain ∈ (run view options cancel).1.results, Located view.modules chain →
      resolveChain view narrow chain = .ok options.target ∧
        chain ∈ (runFilter view narrow options.target stop (run view options cancel).1.results).1) ∧
    (Distinct view.modules →
      (runFilter view narrow options.target stop (run view options cancel).1.results).1 =
        (run view options cancel).1.results) := by
  have reported : ∀ chain ∈ (run view options cancel).1.results,
      Reported view view.modules options chain :=
    fun chain inside => run_sound (fun _ _ found => answered_of_mem memoryInSpace found) inSpace inside
  have resolves : ∀ chain ∈ (run view options cancel).1.results, Located view.modules chain →
      resolveChain view narrow chain = .ok options.target := by
    intro chain inside located
    cases attached : view.attached with
    | true => exact resolveChain_of_located attached (reported chain inside) located
    | false =>
        have none_ : (run view options cancel).1.results = [] :=
          scanDepths_unattached attached cancel view.modules options.maxDepth 0 _ _
        rw [none_] at inside
        contradiction
  have passes : ∀ chain ∈ (run view options cancel).1.results, Located view.modules chain →
      stillResolves view narrow options.target chain = true := by
    intro chain inside located
    simp only [stillResolves, resolves chain inside located, beq_self_eq_true]
  constructor
  · intro chain inside located
    refine ⟨resolves chain inside located, ?_⟩
    rcases runFilter_cases view narrow options.target stop (run view options cancel).1.results with
      all | some_
    · rw [all]
      exact inside
    · rw [some_, List.mem_filter]
      exact ⟨inside, passes chain inside located⟩
  · intro distinct
    rcases runFilter_cases view narrow options.target stop (run view options cancel).1.results with
      all | some_
    · exact all
    · rw [some_, List.filter_eq_self]
      intro chain inside
      exact passes chain inside (located_of_distinct distinct (reported chain inside).2.2)

/-- Two modules, whose pointers lead to different places. -/
def twoModules (first second : WideText) : TargetView where
  modules := [{ base := 0x10000, size := 8, name := first },
    { base := 0x20000, size := 8, name := second }]
  regions := [{ base := 0x10000, size := 8, readable := true },
    { base := 0x20000, size := 8, readable := true }]
  memory := fun address =>
    if addressSpace ≤ address then none
    else if 0x20000 ≤ address then [0, 0, 3, 0, 0, 0, 0, 0][address - 0x20000]?
    else if 0x10000 ≤ address then [0, 0, 7, 0, 0, 0, 0, 0][address - 0x10000]?
    else none

/-- The second module's pointer is found, and stays. -/
theorem rescan_keeps_second :
    (run (twoModules [97] [98]) { target := 0x30010 } .never).1.results.map (·.scanTimeBase) =
        [0x20000] ∧
      (runFilter (twoModules [97] [98]) (fun _ => []) 0x30010 .never
        (run (twoModules [97] [98]) { target := 0x30010 } .never).1.results).1 =
          (run (twoModules [97] [98]) { target := 0x30010 } .never).1.results :=
  ⟨by decide, (@rescan_keeps (twoModules [97] [98]) { target := 0x30010 }
    (fun _ outside => if_pos outside) (by decide) (fun _ => []) .never .never).2
      (by unfold Distinct; decide)⟩

/-- Two modules whose names differ in case only: the second module's chain is found, resolves
through the first module, and the rescan discards it. -/
theorem sameNamed_discarded :
    (run (twoModules [97] [65]) { target := 0x30010 } .never).1.results =
        [{ moduleName := [65], moduleOffset := 0, offsets := [0x10], moduleBase := 0x20000 }] ∧
      (run (twoModules [97] [65]) { target := 0x30010 } .never).2 =
        "Pointer scan complete: 1 chain(s)" ∧
      resolveChain (twoModules [97] [65]) (fun _ => [])
        { moduleName := [65], moduleOffset := 0, offsets := [0x10], moduleBase := 0x20000 } =
          .ok 0x70010 ∧
      (runFilter (twoModules [97] [65]) (fun _ => []) 0x30010 .never
        (run (twoModules [97] [65]) { target := 0x30010 } .never).1.results).1 = [] := by
  refine ⟨by decide, by decide, by decide, by decide⟩

end PointerLab.PointerScanner
