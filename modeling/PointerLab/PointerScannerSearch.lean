import PointerLab.PointerScannerSlots

set_option autoImplicit false

/- What one depth of a pointer scan does to its progress, and why every chain leads to the
target. -/
namespace PointerLab.PointerScanner

open Domain Sweep TargetView

variable {modules : List ModuleInfo} {options : PointerScanOptions}

theorem chainOf_base {module : ModuleInfo} {candidate : Candidate}
    (inside : contains module candidate.address = true) :
    (chainOf module candidate).scanTimeBase = candidate.address := by
  simp only [contains, Bool.and_eq_true, decide_eq_true_eq] at inside
  simp only [PointerChain.scanTimeBase, chainOf]
  omega

/-- The chains that joining a candidate adds when the limit allows. -/
def chainsOf (modules : List ModuleInfo) (candidate : Candidate) : List PointerChain :=
  match modules.find? fun module => contains module candidate.address with
  | none => []
  | some module => [chainOf module candidate]

theorem mem_chainsOf {candidate : Candidate} {chain : PointerChain}
    (inside : chain ∈ chainsOf modules candidate) :
    ∃ module ∈ modules, contains module candidate.address = true ∧
      chain = chainOf module candidate := by
  unfold chainsOf at inside
  split at inside
  · contradiction
  · rename_i module found
    have owns := List.find?_some (p := fun module => contains module candidate.address) found
    exact ⟨module, List.mem_of_find?_eq_some found, owns, List.mem_singleton.mp inside⟩

@[simp] theorem join_seen (candidate : Candidate) (progress : Progress) :
    (join modules options candidate progress).seen = candidate.address :: progress.seen := by
  unfold join push report
  split <;> split_ifs <;> rfl

/-- Joining either keeps everything or records that a limit dropped something. -/
theorem join_cases (modules : List ModuleInfo) (options : PointerScanOptions)
    (candidate : Candidate) (progress : Progress) :
    let joined := join modules options candidate progress
    (joined.next = progress.next ++ [candidate] ∧
        joined.results = progress.results ++ chainsOf modules candidate ∧
        joined.truncated = progress.truncated) ∨
      ((joined.next = progress.next ++ [candidate] ∨ joined.next = progress.next) ∧
        (joined.results = progress.results ++ chainsOf modules candidate ∨
          joined.results = progress.results) ∧ joined.truncated = true) := by
  unfold join push report chainsOf
  cases modules.find? fun module => contains module candidate.address with
  | none => split_ifs <;> simp
  | some module => split_ifs <;> simp

theorem mem_join_next {candidate entry : Candidate} {progress : Progress}
    (inside : entry ∈ (join modules options candidate progress).next) :
    entry ∈ progress.next ∨ entry = candidate := by
  have grown (inside : entry ∈ progress.next ++ [candidate]) :
      entry ∈ progress.next ∨ entry = candidate := by
    rw [List.mem_append, List.mem_singleton] at inside
    exact inside
  cases join_cases modules options candidate progress with
  | inl whole => exact grown (whole.1 ▸ inside)
  | inr dropped =>
      cases dropped.1 with
      | inl next => exact grown (next ▸ inside)
      | inr same => exact Or.inl (same ▸ inside)

theorem join_results (modules : List ModuleInfo) (options : PointerScanOptions)
    (candidate : Candidate) (progress : Progress) :
    (join modules options candidate progress).results =
        progress.results ++ chainsOf modules candidate ∨
      (join modules options candidate progress).results = progress.results := by
  cases join_cases modules options candidate progress with
  | inl whole => exact Or.inl whole.2.1
  | inr dropped => exact dropped.2.1

theorem mem_join_results {candidate : Candidate} {progress : Progress} {chain : PointerChain}
    (inside : chain ∈ (join modules options candidate progress).results) :
    chain ∈ progress.results ∨ chain ∈ chainsOf modules candidate := by
  cases join_results modules options candidate progress with
  | inl grown => exact List.mem_append.mp (grown ▸ inside)
  | inr same => exact Or.inl (same ▸ inside)

theorem subset_join_results (candidate : Candidate) {progress : Progress} {chain : PointerChain}
    (inside : chain ∈ progress.results) :
    chain ∈ (join modules options candidate progress).results := by
  cases join_results modules options candidate progress with
  | inl grown => exact grown ▸ List.mem_append_left _ inside
  | inr same => exact same ▸ inside

/-- Where nothing has been dropped, the candidate and its chain are there. -/
theorem join_going {candidate : Candidate} {progress : Progress}
    (going : (join modules options candidate progress).truncated = false) :
    (join modules options candidate progress).next = progress.next ++ [candidate] ∧
      (join modules options candidate progress).results =
        progress.results ++ chainsOf modules candidate ∧ progress.truncated = false := by
  cases join_cases modules options candidate progress with
  | inl whole => exact ⟨whole.1, whole.2.1, whole.2.2 ▸ going⟩
  | inr dropped =>
      rw [dropped.2.2] at going
      contradiction

theorem join_truncated {candidate : Candidate} {progress : Progress}
    (stopped : progress.truncated = true) :
    (join modules options candidate progress).truncated = true := by
  cases join_cases modules options candidate progress with
  | inl whole => exact whole.2.2.trans stopped
  | inr dropped => exact dropped.2.2

/-- Only the first match of a slot changes anything. -/
theorem visitMatch_seen {found pointerValue : Nat} {progress : Progress}
    (matches_ : List Candidate) (seen : found ∈ progress.seen) :
    matches_.foldl (visitMatch modules options found pointerValue) progress = progress := by
  induction matches_ with
  | nil => rfl
  | cons source rest ih =>
      have skipped : visitMatch modules options found pointerValue progress source = progress :=
        if_pos (List.contains_iff_mem.mpr seen)
      rw [List.foldl_cons, skipped, ih]

theorem mem_matchesOf {sorted : List Candidate}
    (up : sorted.Pairwise fun a b => a.address ≤ b.address) {pointerValue : Nat}
    {source : Candidate} :
    source ∈ matchesOf options sorted pointerValue ↔
      source ∈ sorted ∧ pointerValue ≤ source.address ∧
        source.address ≤ pointerValue + options.maxOffset := by
  unfold matchesOf
  rw [dropWhile_eq_filter, takeWhile_eq_filter, List.mem_filter, List.mem_filter]
  · simp only [Bool.not_eq_true', decide_eq_false_iff_not, Nat.not_lt, decide_eq_true_eq, and_assoc]
    refine and_congr_right fun _ => and_congr_right fun _ => ?_
    omega
  · refine (up.filter _).imp fun ordered => ?_
    simp only [decide_eq_true_eq]
    omega
  · refine up.imp fun ordered => ?_
    simp only [decide_eq_true_eq]
    omega

theorem sortTargets_up (frontier : List Candidate) :
    (sortTargets frontier).Pairwise fun a b => a.address ≤ b.address := by
  have total : Std.Total fun a b : Candidate => a.address ≤ b.address :=
    ⟨fun a b => Nat.le_total a.address b.address⟩
  have trans : IsTrans Candidate fun a b => a.address ≤ b.address :=
    ⟨fun _ _ _ first second => Nat.le_trans first second⟩
  exact List.pairwise_insertionSort _ frontier

@[simp] theorem mem_sortTargets {frontier : List Candidate} {candidate : Candidate} :
    candidate ∈ sortTargets frontier ↔ candidate ∈ frontier :=
  List.mem_insertionSort _

/-- A slot that is new and comes close to a frontier entry joins; any other changes nothing. -/
theorem visitSlot_cases (modules : List ModuleInfo) (options : PointerScanOptions)
    (frontier : List Candidate) (progress : Progress)
    (address pointer : Nat) :
    (visitSlot modules options (sortTargets frontier) progress (address, pointer) = progress ∧
        (address ∈ progress.seen ∨
          ∀ source ∈ frontier, ¬ Near options pointer source.address)) ∨
      ∃ source ∈ frontier, address ∉ progress.seen ∧ Near options pointer source.address ∧
        visitSlot modules options (sortTargets frontier) progress (address, pointer) =
          join modules options
            { address, offsets := (source.address - pointer : Int) :: source.offsets }
            progress := by
  unfold visitSlot
  by_cases null : pointer = 0
  · exact Or.inl ⟨if_pos null, Or.inr fun _ _ near => near.1 null⟩
  · simp only [null, ↓reduceIte]
    have member (source : Candidate) :=
      @mem_matchesOf options _ (sortTargets_up frontier) pointer source
    cases matched : matchesOf options (sortTargets frontier) pointer with
    | nil =>
        refine Or.inl ⟨rfl, Or.inr fun source inFrontier near => ?_⟩
        have inside := (member source).mpr ⟨mem_sortTargets.mpr inFrontier, near.2⟩
        rw [matched] at inside
        contradiction
    | cons source rest =>
        by_cases seen : address ∈ progress.seen
        · exact Or.inl ⟨visitMatch_seen _ seen, Or.inl seen⟩
        · have inside := (member source).mp (matched ▸ List.mem_cons_self)
          refine Or.inr ⟨source, mem_sortTargets.mp inside.1, seen, ⟨null, inside.2⟩, ?_⟩
          have first : visitMatch modules options address pointer progress source =
              join modules options
                { address, offsets := (source.address - pointer : Int) :: source.offsets }
                progress :=
            if_neg fun contained => seen (List.contains_iff_mem.mp contained)
          rw [List.foldl_cons, first]
          refine visitMatch_seen rest ?_
          rw [join_seen]
          exact List.mem_cons_self

/-- Following the offsets from the address ends at the target, and none of them is out of
range. -/
def Path (view : TargetView) (options : PointerScanOptions) (address : Nat)
    (offsets : List Int) : Prop :=
  walk view address offsets = .ok options.target ∧
    ∀ offset ∈ offsets, 0 ≤ offset ∧ offset ≤ options.maxOffset

theorem path_hop {view : TargetView} {address pointer next : Nat} {offsets : List Int}
    (answered : readPointer view address = .ok pointer) (near : Near options pointer next)
    (bounded : next < addressSpace) (path : Path view options next offsets) :
    Path view options address ((next - pointer : Int) :: offsets) := by
  obtain ⟨nonnull, lower, upper⟩ := near
  constructor
  · have landed : (((pointer : Int) + (next - pointer)) % addressSpace).toNat = next := by
      have sum : (pointer : Int) + (next - pointer) = next := by omega
      rw [sum, Int.emod_eq_of_lt (by omega) (by omega), Int.toNat_natCast]
    simp only [walk, answered, nonnull, ↓reduceIte, landed]
    exact path.1
  · intro offset inside
    rcases List.mem_cons.mp inside with rfl | inside
    · omega
    · exact path.2 offset inside

/-- A chain that leads from an address of one of the modules to the target. -/
def Reported (view : TargetView) (modules : List ModuleInfo) (options : PointerScanOptions)
    (chain : PointerChain) : Prop :=
  Path view options chain.scanTimeBase chain.offsets ∧ chain.scanTimeBase < addressSpace ∧
    ∃ module ∈ modules, chain.moduleName = module.name ∧ chain.moduleBase = module.base

/-- Every entry of the frontier and every chain leads to the target. -/
structure Sound (view : TargetView) (modules : List ModuleInfo) (options : PointerScanOptions)
    (progress : Progress) : Prop where
  next : ∀ candidate ∈ progress.next,
    Path view options candidate.address candidate.offsets ∧ candidate.address < addressSpace
  results : ∀ chain ∈ progress.results, Reported view modules options chain

theorem join_sound {view : TargetView} {candidate : Candidate} {progress : Progress}
    (sound : Sound view modules options progress)
    (path : Path view options candidate.address candidate.offsets)
    (bounded : candidate.address < addressSpace) :
    Sound view modules options (join modules options candidate progress) := by
  constructor
  case next =>
    intro entry inside
    cases mem_join_next inside with
    | inl old => exact sound.next entry old
    | inr new => exact new ▸ ⟨path, bounded⟩
  case results =>
    intro chain inside
    cases mem_join_results inside with
    | inl old => exact sound.results chain old
    | inr new =>
        obtain ⟨module, listed, owns, rfl⟩ := mem_chainsOf new
        rw [Reported, chainOf_base owns]
        exact ⟨path, bounded, module, listed, rfl, rfl⟩

/-- One depth keeps the search sound, wherever it is cut short. -/
theorem sweep_sound {view : TargetView} {frontier : List Candidate} {progress : Progress}
    (found : List (Nat × Nat))
    (real : ∀ slot ∈ found, readPointer view slot.1 = .ok slot.2 ∧ slot.1 < addressSpace)
    (leads : ∀ source ∈ frontier,
      Path view options source.address source.offsets ∧ source.address < addressSpace)
    (sound : Sound view modules options progress) :
    Sound view modules options
      (found.foldl (visitSlot modules options (sortTargets frontier)) progress) := by
  induction found generalizing progress with
  | nil => exact sound
  | cons slot rest ih =>
      rw [List.foldl_cons]
      refine ih (fun slot inRest => real slot (List.mem_cons_of_mem _ inRest)) ?_
      obtain ⟨answered, bounded⟩ := real slot List.mem_cons_self
      obtain ⟨address, pointer⟩ := slot
      rcases visitSlot_cases modules options frontier progress address
        pointer with ⟨same, _⟩ | ⟨source, inFrontier, _, near, joined⟩
      · rw [same]
        exact sound
      · obtain ⟨path, below⟩ := leads source inFrontier
        rw [joined]
        exact join_sound sound (path_hop answered near below path) bounded

theorem scanDepths_sound {view : TargetView} {cancel : Cancel} {depth remaining : Nat}
    {frontier : List Candidate} {progress : Progress}
    (real : ∀ depth, ∀ slot ∈ slots view cancel depth,
      readPointer view slot.1 = .ok slot.2 ∧ slot.1 < addressSpace)
    (leads : ∀ source ∈ frontier,
      Path view options source.address source.offsets ∧ source.address < addressSpace)
    (sound : Sound view modules options progress) :
    Sound view modules options
      (scanDepths modules options view cancel remaining depth frontier progress) := by
  induction remaining generalizing depth frontier progress with
  | zero => exact sound
  | succ remaining ih =>
      simp only [scanDepths]
      split
      · exact sound
      · have swept : Sound view modules options ((slots view cancel depth).foldl
            (visitSlot modules options (sortTargets frontier)) { progress with next := [] }) :=
          sweep_sound _ (real depth) leads
            ⟨fun _ inside => absurd inside List.not_mem_nil, sound.results⟩
        split
        · exact swept
        · exact ih swept.next swept

/-- Every chain that a scan reports leads from one of its modules to the target. -/
theorem run_sound {view : TargetView} {cancel : Cancel}
    (real : ∀ depth, ∀ slot ∈ slots view cancel depth,
      readPointer view slot.1 = .ok slot.2 ∧ slot.1 < addressSpace)
    (inSpace : options.target < addressSpace) {chain : PointerChain}
    (inside : chain ∈ (run view options cancel).1.results) :
    Reported view view.modules options chain := by
  have sound : Sound view view.modules options (run view options cancel).1 := by
    refine scanDepths_sound real (fun source inside => ?_)
      ⟨fun _ inside => absurd inside List.not_mem_nil,
        fun _ inside => absurd inside List.not_mem_nil⟩
    obtain rfl := List.mem_singleton.mp inside
    exact ⟨⟨rfl, fun _ inside => absurd inside List.not_mem_nil⟩, inSpace⟩
  exact sound.results chain inside

end PointerLab.PointerScanner
