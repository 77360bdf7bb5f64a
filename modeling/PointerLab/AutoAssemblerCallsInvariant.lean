import PointerLab.AutoAssemblerCalls

set_option autoImplicit false

/- What a script's stored state owns under concurrent calls: which orders of sections and
steps keep it right. -/
namespace PointerLab.AutoAssembler.Calls

open Runs Std
open PatchRegistry (settled_start)

variable {id : Nat} {s : Shared}

/-- No thread is in a run of the script. -/
def Idle (s : Shared) : Prop :=
  ∀ (thread : Nat) (stage : Stage), s.calls[thread]? = some stage → stage.runs = false

theorem idle_of_not_busy (quiet : busy s = false) : Idle s := by
  intro thread stage present
  rw [busy, List.any_eq_false] at quiet
  have listed := TreeMap.mem_toList_iff_getElem?_eq_some.mpr present
  exact Bool.eq_false_iff.mpr (quiet _ listed)

/-- What holds of the list and of a world when no run is in progress. -/
structure Rests (id : Nat) (s : Shared) (world : World) : Prop where
  present : ∀ base ∈ s.allocated, base ∈ world.blockBases
  records : ∀ record ∈ world.recordIds, record ∈ s.added → record ∈ (s.list.stored id).patchIds
  blocks : ∀ base ∈ s.allocated, base ∈ (s.list.stored id).allocations.map (·.address)
  off : (∀ script ∈ s.list.find id, script.enabled = false) → OwnsNothing (s.list.stored id)
  source : ∀ script ∈ s.list.find id, script.enabled = true → s.source = some script.source

/-- What is true of a call in progress, by where it stands. A run was begun in a world at
rest, and left alone it comes to what the function of its name does there. -/
def Stands (id : Nat) (s : Shared) : Stage → Prop
  | .copy _ script enabled _ => s.list.find id = some script ∧ script.enabled ≠ enabled ∧
      Rests id s s.world
  | .run script enabled met routine _ => s.list.find id = some script ∧ script.enabled ≠ enabled ∧
      Rests id s met ∧ ∃ env, Clean env script enabled (s.list.stored id) met ∧
        routine.finish s.world = runScript env script enabled (s.list.stored id) met
  | _ => True

structure Coherent (id : Nat) (s : Shared) : Prop where
  rests : Idle s → Rests id s s.world
  stands : ∀ (thread : Nat) (stage : Stage), s.calls[thread]? = some stage → Stands id s stage
  alone : ∀ (first second : Nat) (one other : Stage), s.calls[first]? = some one →
    s.calls[second]? = some other → one.runs = true → other.runs = true → first = second

theorem proceed_eq_some {calls : TreeMap Nat Stage} {thread other : Nat} {progress : Progress}
    {stage : Stage} (present : (proceed thread calls progress)[other]? = some stage) :
    (other = thread ∧ progress = .pending stage) ∨
      (other ≠ thread ∧ calls[other]? = some stage) := by
  cases progress with
  | pending new =>
      rcases Tables.eq_some_of_insert present with ⟨here, rfl⟩ | elsewhere
      · exact Or.inl ⟨here, rfl⟩
      · exact Or.inr elsewhere
  | finished reply => exact Or.inr (Tables.eq_some_of_erase present)

theorem proceed_other {calls : TreeMap Nat Stage} {thread other : Nat} (progress : Progress)
    (different : other ≠ thread) : (proceed thread calls progress)[other]? = calls[other]? := by
  cases progress with
  | pending new => rw [proceed, Tables.getElem?_insert, if_neg different]
  | finished reply => rw [proceed, Tables.getElem?_erase, if_neg different]

/-- A stage without a run stands in every state. -/
theorem stands_idle {stage : Stage} (idle : stage.runs = false) (after : Shared) :
    Stands id after stage := by
  cases stage with
  | copy => cases idle
  | run => cases idle
  | disable => trivial
  | erase => trivial

/-- A step of a thread after which no run is in progress, or none but its own. -/
theorem Coherent.moved {after : Shared} {thread : Nat} {progress : Progress}
    (calls : after.calls = proceed thread s.calls progress)
    (quiet : ∀ (other : Nat) (stage : Stage), other ≠ thread → s.calls[other]? = some stage →
      stage.runs = false)
    (rests : (∀ stage, progress = .pending stage → stage.runs = false) → Rests id after after.world)
    (stands : ∀ stage, progress = .pending stage → Stands id after stage) : Coherent id after := by
  constructor
  · intro idle
    apply rests
    intro stage pending
    apply idle thread stage
    rw [calls, pending, proceed, Tables.getElem?_insert, if_pos rfl]
  · intro other stage present
    rw [calls] at present
    rcases proceed_eq_some present with ⟨rfl, pending⟩ | ⟨different, before⟩
    · exact stands stage pending
    · exact stands_idle (quiet other stage different before) after
  · intro first second one other here there runs alsoRuns
    rw [calls] at here there
    rcases proceed_eq_some here with ⟨rfl, _⟩ | ⟨apart, before⟩
    · rcases proceed_eq_some there with ⟨rfl, _⟩ | ⟨apart, before⟩
      · rfl
      · rw [quiet second other apart before] at alsoRuns
        cases alsoRuns
    · rw [quiet first one apart before] at runs
      cases runs

/-- A step after which the one run in progress is its own. -/
theorem Coherent.running {after : Shared} {thread : Nat} {stage : Stage}
    (calls : after.calls = proceed thread s.calls (.pending stage)) (runs : stage.runs = true)
    (quiet : ∀ (other : Nat) (stage : Stage), other ≠ thread → s.calls[other]? = some stage →
      stage.runs = false)
    (stands : Stands id after stage) : Coherent id after := by
  refine Coherent.moved calls quiet ?_ ?_
  · intro idle
    have ended := idle stage rfl
    rw [runs] at ended
    cases ended
  · rintro _ ⟨⟩
    exact stands

theorem Rests.owns {world : World} {script : Script} (rests : Rests id s world)
    (found : s.list.find id = some script) (off : script.enabled = false) :
    OwnsNothing (s.list.stored id) := by
  apply rests.off
  intro other member
  rw [Option.mem_def, found] at member
  exact Option.some.inj member ▸ off

theorem Rests.withCalls {world : World} (rests : Rests id s world) (calls : TreeMap Nat Stage) :
    Rests id { s with calls := calls } world :=
  ⟨rests.present, rests.records, rests.blocks, rests.off, rests.source⟩

theorem Stands.withCalls {stage : Stage} (stands : Stands id s stage) (calls : TreeMap Nat Stage) :
    Stands id { s with calls := calls } stage := by
  cases stage with
  | copy env script enabled next => exact ⟨stands.1, stands.2.1, stands.2.2.withCalls calls⟩
  | run script enabled met routine next =>
      exact ⟨stands.1, stands.2.1, stands.2.2.1.withCalls calls, stands.2.2.2⟩
  | disable => trivial
  | erase => trivial

theorem Coherent.others (before : Coherent id s) {thread : Nat} {stage : Stage}
    (present : s.calls[thread]? = some stage) (runs : stage.runs = true) (other : Nat)
    (another : Stage) (different : other ≠ thread) (there : s.calls[other]? = some another) :
    another.runs = false := by
  rw [← Bool.not_eq_true]
  exact fun alsoRuns => different (before.alone other thread another stage there present alsoRuns runs)

/-- A step that changes nothing but where its thread stands, outside of any run. -/
theorem Coherent.idle (before : Coherent id s) {thread : Nat} {progress : Progress}
    (was : ∀ old, s.calls[thread]? = some old → old.runs = false)
    (now : ∀ stage, progress = .pending stage → stage.runs = false) :
    Coherent id { s with calls := proceed thread s.calls progress } := by
  constructor
  · intro idle
    refine Rests.withCalls (before.rests ?_) _
    intro other stage present
    by_cases same : other = thread
    · exact was stage (same ▸ present)
    · exact idle other stage ((proceed_other progress same).trans present)
  · intro other stage present
    rcases proceed_eq_some present with ⟨rfl, pending⟩ | ⟨_, there⟩
    · exact stands_idle (now stage pending) _
    · exact Stands.withCalls (before.stands other stage there) _
  · intro first second one other here there runs alsoRuns
    rcases proceed_eq_some here with ⟨_, pending⟩ | ⟨_, here⟩
    · rw [now one pending] at runs
      cases runs
    · rcases proceed_eq_some there with ⟨_, pending⟩ | ⟨_, there⟩
      · rw [now other pending] at alsoRuns
        cases alsoRuns
      · exact before.alone first second one other here there runs alsoRuns

theorem follow_idle {reply : Except String Unit} {next : Next} (stage : Stage)
    (pending : follow reply next = .pending stage) : stage.runs = false := by
  cases next with
  | done => cases pending
  | erase =>
      cases reply with
      | error message => cases pending
      | ok answer =>
          cases pending
          rfl

/-- The first section of `setEnabled`, when no run is in progress that it could cross. -/
theorem Coherent.beginRun (before : Coherent id s) {thread : Nat} {env : Env} {enabled : Bool}
    {next : Next} (was : ∀ old, s.calls[thread]? = some old → old.runs = false)
    (careful : starts id enabled s = true → busy s = false) :
    Coherent id { s with
      calls := proceed thread s.calls (beginRun env id enabled next s.list) } := by
  unfold Calls.beginRun
  split
  · exact before.idle was follow_idle
  · rename_i script found
    split
    · exact before.idle was follow_idle
    · rename_i differs
      have idle := idle_of_not_busy (careful (by simp [starts, found, differs]))
      apply @Coherent.running id s _ thread (.copy env script enabled next) rfl rfl
        fun other stage _ => idle other stage
      exact ⟨found, differs, (before.rests idle).withCalls _⟩

/-- A source is replaced while the script is off and no run of it is in progress. -/
theorem Coherent.update (before : Coherent id s) {thread : Nat} {name source : Text}
    (fresh : s.calls[thread]? = none) (careful : starts id true s = true → busy s = false) :
    Coherent id { s with
      list := (update id name source s.list).1
      calls := proceed thread s.calls (.finished (update id name source s.list).2) } := by
  have was : ∀ old, s.calls[thread]? = some old → old.runs = false :=
    fun old present => absurd (fresh.symm.trans present) (Option.some_ne_none old).symm
  unfold AutoAssembler.update
  split
  · exact before.idle was nofun
  · rename_i script found
    split
    · exact before.idle was nofun
    · rename_i off
      have idle := idle_of_not_busy (careful (by simp [starts, found, off]))
      have rests := before.rests idle
      refine @Coherent.moved id s _ thread (.finished (.ok ())) rfl
        (fun other stage _ => idle other stage) ?_ nofun
      intro _
      rw [Bool.not_eq_true] at off
      have owns := rests.owns found off
      refine ⟨rests.present, rests.records, rests.blocks, fun _ => owns, ?_⟩
      intro other member on
      have changed : (changeScript id _ s.list.scripts).find? _ = some other := member
      have same : s.list.scripts.find? (fun script => script.id == id) = some script := found
      rw [find_changeScript (by intro; rfl), same] at changed
      rw [← Option.some.inj changed, off] at on
      cases on

/-- An entry is erased while its script is off and no run of it is in progress. -/
theorem Coherent.erase (before : Coherent id s) {thread : Nat}
    (was : ∀ old, s.calls[thread]? = some old → old.runs = false)
    (careful : ∀ script ∈ s.list.find id, script.enabled = false ∧ busy s = false) :
    Coherent id { s with
      list := (eraseScript id s.list).1
      calls := proceed thread s.calls (.finished (eraseScript id s.list).2) } := by
  unfold eraseScript
  split
  · exact before.idle was nofun
  · rename_i present
    obtain ⟨script, found⟩ : ∃ script, s.list.find id = some script := by
      apply Option.isSome_iff_exists.mp
      rw [Scripts.find, List.find?_isSome]
      rw [Bool.not_eq_true, List.all_eq_false] at present
      simpa using present
    obtain ⟨off, quiet⟩ := careful script found
    have idle := idle_of_not_busy quiet
    have rests := before.rests idle
    have owns := rests.owns found off
    have nothing : Scripts.stored id { s.list with
        scripts := s.list.scripts.filter fun script => script.id != id
        states := s.list.states.erase id } = {} := by
      rw [Scripts.stored, Tables.getElem?_erase, if_pos rfl, Option.getD_none]
    have missing : Scripts.find id { s.list with
        scripts := s.list.scripts.filter fun script => script.id != id
        states := s.list.states.erase id } = none := by
      rw [Scripts.find, List.find?_eq_none]
      intro other member same
      have kept := (List.mem_filter.mp member).2
      rw [beq_iff_eq.mp same, bne_self_eq_false] at kept
      cases kept
    refine @Coherent.moved id s _ thread (.finished (.ok ())) rfl
      (fun other stage _ => idle other stage) ?_ nofun
    intro _
    constructor
    · exact rests.present
    · intro record there mine
      have owned := rests.records record there mine
      rw [owns.1] at owned
      exact absurd owned List.not_mem_nil
    · intro base mine
      have owned := rests.blocks base mine
      rw [owns.2.1] at owned
      exact absurd owned List.not_mem_nil
    · intro _
      dsimp only
      rw [nothing]
      exact ⟨rfl, rfl, rfl⟩
    · intro other member
      dsimp only at member
      rw [missing] at member
      cases member

/-- What an enable leaves, stored. -/
theorem rests_enabled {env : Env} {script : Script} {met : World} {state : RunState}
    {outcome : Except String Unit} (found : s.list.find id = some script)
    (off : script.enabled = false) (rests : Rests id s met)
    (clean : GivesBack env script (s.list.stored id).symbols met)
    (ran : (s.world, state, outcome) = runEnable env script (s.list.stored id) met) :
    Rests id (storeRun id script true met state outcome s) s.world := by
  have owns := rests.owns found off
  have noRecord : ∀ record ∈ met.recordIds, record ∉ s.added := by
    intro record there mine
    have owned := rests.records record there mine
    rw [owns.1] at owned
    exact List.not_mem_nil owned
  have noBlock : ∀ base, base ∉ s.allocated := by
    intro base mine
    have owned := rests.blocks base mine
    rw [owns.2.1] at owned
    exact List.not_mem_nil owned
  obtain ⟨found_, stored_⟩ := find_store found true state outcome
  -- What is new in the target is all that the bookkeeping holds.
  have newRecord : ∀ record ∈ s.world.recordIds,
      record ∈ (storeRun id script true met state outcome s).added → record ∉ met.recordIds := by
    intro record _ mine old
    rcases List.mem_append.mp mine with before | new
    · exact noRecord record old before
    · have kept := (List.mem_filter.mp new).2
      simp [old] at kept
  have newBlock : ∀ base ∈ (storeRun id script true met state outcome s).allocated,
      base ∈ s.world.blockBases ∧ base ∉ met.blockBases := by
    intro base mine
    obtain ⟨mine, there⟩ := List.mem_filter.mp mine
    rcases List.mem_append.mp mine with before | new
    · exact absurd before (noBlock base)
    · refine ⟨by simpa using there, ?_⟩
      intro old
      have kept := (List.mem_filter.mp new).2
      simp [old] at kept
  have present : ∀ base ∈ (storeRun id script true met state outcome s).allocated,
      base ∈ s.world.blockBases := fun base mine => (newBlock base mine).1
  cases outcome with
  | ok reply =>
      have holds := @runEnable_holds env script (s.list.stored id) met (by rw [← ran])
      rw [← ran] at holds
      refine ⟨present, ?_, ?_, ?_, ?_⟩
      · intro record there mine
        show record ∈ ((store id true state (.ok reply) s.list).stored id).patchIds
        rw [stored_]
        exact (holds.1 record there).resolve_left (newRecord record there mine)
      · intro base mine
        show base ∈ ((store id true state (.ok reply) s.list).stored id).allocations.map _
        rw [stored_]
        obtain ⟨there, new⟩ := newBlock base mine
        exact (holds.2 base there).resolve_left new
      · intro offNow
        have impossible := offNow _ found_
        cases impossible
      · intro other member _
        have same := Option.some.inj (found_.symm.trans member)
        rw [← same]
        rfl
  | error message =>
      have failed : (runEnable env script (s.list.stored id) met).2.2 = .error message := by
        rw [← ran]
      have gone := runEnable_gone owns.1 clean failed
      have ownsAfter := ownsNothing_runEnable owns failed
      rw [← ran] at gone ownsAfter
      refine ⟨present, ?_, ?_, ?_, ?_⟩
      · intro record there mine
        exact absurd (gone.1 there) (newRecord record there mine)
      · intro base mine
        obtain ⟨there, new⟩ := newBlock base mine
        exact absurd (gone.2 there) new
      · intro _
        show OwnsNothing ((store id true state (.error message) s.list).stored id)
        rw [stored_]
        exact ownsAfter
      · intro other member on
        rw [← Option.some.inj (found_.symm.trans member)] at on
        cases on

/-- What a disable leaves, stored. -/
theorem rests_disabled {env : Env} {script : Script} {met : World} {state : RunState}
    {outcome : Except String Unit} (found : s.list.find id = some script)
    (rests : Rests id s met) (clean : TakesAll env script (s.list.stored id) met)
    (ran : (s.world, state, outcome) = runDisable env script (s.list.stored id) met) :
    Rests id (storeRun id script false met state outcome s) s.world := by
  obtain ⟨found_, stored_⟩ := find_store found false state outcome
  obtain ⟨records, blocks⟩ := runDisable_gone clean
  have owns := ownsNothing_runDisable env script (s.list.stored id) met
  rw [← ran] at records blocks owns
  constructor
  · intro base mine
    simpa using (List.mem_filter.mp mine).2
  · intro record there mine
    obtain ⟨old, free⟩ := records record there
    exact absurd (rests.records record old mine) free
  · intro base mine
    obtain ⟨mine, there⟩ := List.mem_filter.mp mine
    have old := rests.present base mine
    exact absurd (rests.blocks base mine) (blocks base (by simpa using there) old)
  · intro _
    show OwnsNothing ((store id false state outcome s.list).stored id)
    rw [stored_]
    exact owns
  · intro other member on
    rw [← Option.some.inj (found_.symm.trans member)] at on
    cases on

theorem advance_calls (id : Nat) (s : Shared) (stage : Stage) :
    (advance id s stage).1.calls = s.calls := by
  cases stage with
  | run script enabled met routine next => cases routine <;> rfl
  | disable | copy | erase => rfl

/-- One careful section or step of a call in progress. -/
theorem coherent_resume {thread : Nat} {stage : Stage} (before : Coherent id s)
    (present : s.calls[thread]? = some stage) (careful : Careful id s (.resume thread)) :
    Coherent id { (advance id s stage).1 with
      calls := proceed thread s.calls (advance id s stage).2 } := by
  have stands := before.stands thread stage present
  have was (idle : stage.runs = false) : ∀ old, s.calls[thread]? = some old → old.runs = false := by
    intro old there
    rw [← Option.some.inj (present.symm.trans there)]
    exact idle
  simp only [Careful, present] at careful
  cases stage with
  | disable env => exact before.beginRun (was rfl) careful
  | erase => exact before.erase (was rfl) careful
  | copy env script enabled next =>
      obtain ⟨found, differs, rests⟩ := stands
      apply @Coherent.running id s _ thread (.run script enabled s.world
        (routineOf env script enabled (s.list.stored id)) next) rfl rfl (before.others present rfl)
      exact ⟨found, differs, rests.withCalls _, env, careful,
        finish_routineOf env script enabled (s.list.stored id) s.world⟩
  | run script enabled met routine next =>
      obtain ⟨found, differs, rests, env, clean, finishes⟩ := stands
      cases routine with
      | act effect rest =>
          apply @Coherent.running id s _ thread (.run script enabled met (rest s.world) next) rfl rfl
            (before.others present rfl)
          refine ⟨found, differs, ?_, env, clean, finishes⟩
          exact ⟨rests.present, rests.records, rests.blocks, rests.off, rests.source⟩
      | done reply =>
          obtain ⟨state, outcome⟩ := reply
          refine @Coherent.moved id s _ thread (follow outcome next) rfl
            (before.others present rfl) ?_ ?_
          · intro _
            apply Rests.withCalls
            cases enabled with
            | true => exact rests_enabled found (Bool.eq_false_iff.mpr differs) rests clean finishes
            | false => exact rests_disabled found rests clean finishes
          · intro stage pending
            exact stands_idle (follow_idle stage pending) _

/-- One careful step of any thread keeps the script's state right. -/
theorem coherent_callStep {event : Event} (before : Coherent id s) (careful : Careful id s event) :
    Coherent id (callStep id s event) := by
  cases event with
  | begin thread request =>
      cases running : s.calls[thread]? with
      | some stage =>
          simp only [callStep, running]
          exact before
      | none =>
          have was : ∀ old, s.calls[thread]? = some old → old.runs = false :=
            fun old there => absurd (running.symm.trans there) (Option.some_ne_none old).symm
          simp only [callStep, running]
          cases request with
          | setEnabled env enabled => exact before.beginRun was careful
          | update name source => exact before.update running careful
          | remove env =>
              simp only [beginCall]
              split
              · apply before.idle was
                rintro stage ⟨⟩
                rfl
              · rename_i script _
                apply before.idle was
                rintro stage ⟨⟩
                cases script.enabled <;> rfl
  | resume thread =>
      cases running : s.calls[thread]? with
      | none =>
          simp only [callStep, running]
          exact before
      | some stage =>
          simp only [callStep, running]
          rw [advance_calls]
          exact coherent_resume before running careful

/-- In every interleaving whose steps are careful, whenever no call is in progress the stored
state owns what the script's enables have brought, from any target and any list in which the
script is off and owns nothing. -/
theorem calls_owned {list : Scripts} {world : World}
    (off : ∀ script ∈ list.find id, script.enabled = false) (owns : OwnsNothing (list.stored id))
    (reached : Reached (callStep id) (Careful id) { list, world } s)
    (quiescent : ∀ thread : Nat, s.calls[thread]? = none) : Owned id s := by
  have idle (calls : TreeMap Nat Stage) (none : ∀ thread : Nat, calls[thread]? = none) :
      ∀ (thread : Nat) (stage : Stage), calls[thread]? ≠ some stage :=
    fun thread stage present => absurd (present.symm.trans (none thread)) (Option.some_ne_none stage)
  have start : Coherent id { list, world } := by
    refine ⟨fun _ => ⟨nofun, nofun, nofun, fun _ => owns, ?_⟩, ?_, ?_⟩
    · intro script member on
      rw [off script member] at on
      cases on
    · intro thread stage present
      exact absurd present (idle ∅ (fun _ => TreeMap.getElem?_emptyc) thread stage)
    · intro first _ one _ present
      exact absurd present (idle ∅ (fun _ => TreeMap.getElem?_emptyc) first one)
  have coherent : Coherent id s := reached.invariant start fun _ _ => coherent_callStep
  have rests := coherent.rests fun thread stage present =>
    absurd present (idle s.calls quiescent thread stage)
  refine ⟨?_, ?_, rests.off, rests.source⟩
  · intro patch member mine
    exact rests.records patch.id (List.mem_map_of_mem member) mine
  · intro block _ mine
    obtain ⟨allocation, inState, same⟩ := List.mem_map.mp (rests.blocks block.base mine)
    exact ⟨allocation, inState, same⟩

/-- One script on the bench, and nobody calling. -/
def calledOn (source : String) : Shared := { list := oneScript source, world := bareWorld }

def patchSource : String := "alloc(m, 100)\n20000000:\nnop\n[DISABLE]\ndealloc(m)"

/-- Two threads enable one script. Both have copied its empty state before either runs; the
second one meets the patch of the first, and takes back its own part. -/
def crossedEnables : List Event :=
  [.begin 1 (.setEnabled bench true), .begin 2 (.setEnabled bench true), .resume 1, .resume 2] ++
    List.replicate 14 (.resume 1) ++ List.replicate 14 (.resume 2)

def crossed : Shared := run (callStep 1) (calledOn patchSource) crossedEnables

/-- The script is shown as off and its state is empty; its patch and its block are there. -/
theorem crossedEnables_disowned :
    crossed.calls.isEmpty = true ∧ (crossed.list.find 1).map (·.enabled) = some false ∧
      crossed.world.recordIds = [1] ∧ crossed.world.blockBases = [0x10000] ∧
      (crossed.list.stored 1).patchIds = [] ∧ (crossed.list.stored 1).allocations = [] ∧
      ¬Owned 1 crossed := by
  -- the run is evaluated once for all that is looked at
  obtain ⟨mine, quiet, off, records, bases, state, nothing⟩ : 1 ∈ crossed.added ∧
      crossed.calls.isEmpty = true ∧ (crossed.list.find 1).map (·.enabled) = some false ∧
      crossed.world.recordIds = [1] ∧ crossed.world.blockBases = [0x10000] ∧
      (crossed.list.stored 1).patchIds = [] ∧ (crossed.list.stored 1).allocations = [] := by
    decide +kernel
  refine ⟨quiet, off, records, bases, state, nothing, ?_⟩
  intro owned
  have listed : 1 ∈ crossed.world.recordIds := records ▸ List.mem_cons_self
  obtain ⟨patch, member, isOne⟩ := List.mem_map.mp listed
  have claimed := owned.patches patch member (isOne ▸ mine)
  rw [state] at claimed
  exact List.not_mem_nil claimed

/-- One thread enables the script, and then another removes it. -/
def takingTurns : List Event :=
  .begin 1 (.setEnabled bench true) :: List.replicate 14 (.resume 1) ++
    .begin 2 (.remove bench) :: List.replicate 14 (.resume 2)

theorem takingTurns_owned :
    (run (callStep 1) (calledOn patchSource) (takingTurns.take 15)).world.recordIds = [1] ∧
      Owned 1 (run (callStep 1) (calledOn patchSource) (takingTurns.take 15)) ∧
      Owned 1 (run (callStep 1) (calledOn patchSource) takingTurns) := by
  obtain ⟨enabling, enabled, records⟩ :
      Follows (callStep 1) (Careful 1) (calledOn patchSource) (takingTurns.take 15) ∧
        (run (callStep 1) (calledOn patchSource) (takingTurns.take 15)).calls.isEmpty = true ∧
        (run (callStep 1) (calledOn patchSource) (takingTurns.take 15)).world.recordIds = [1] := by
    decide +kernel
  obtain ⟨both, removed⟩ :
      Follows (callStep 1) (Careful 1) (calledOn patchSource) takingTurns ∧
        (run (callStep 1) (calledOn patchSource) takingTurns).calls.isEmpty = true := by
    decide +kernel
  have off : ∀ script ∈ (oneScript patchSource).find 1, script.enabled = false := by decide
  refine ⟨records, ?_, ?_⟩
  · exact calls_owned off ⟨rfl, rfl, rfl⟩ enabling.reached
      fun thread => TreeMap.getElem?_of_isEmpty enabled
  · exact calls_owned off ⟨rfl, rfl, rfl⟩ both.reached
      fun thread => TreeMap.getElem?_of_isEmpty removed

end PointerLab.AutoAssembler.Calls
