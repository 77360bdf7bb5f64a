import PointerLab.PatchRegistryCallSteps
import PointerLab.Runs

set_option autoImplicit false

/- The registry under concurrent calls: which orders of sections and accesses keep it
true, and what it then says about the target. -/
namespace PointerLab.PatchRegistry

open Overlay Layers TargetSession Std

variable {base : Nat → UInt8} {book : Nat → Option (Layer UInt8)} {p : Patched}
  {calls : TreeMap Nat Stage}

/-- Whether a call is about to start a toggle against one that goes the other way, to
erase the record of a patch that shows or is about to, or to claim a range that a toggle
of an erased record is about to write. -/
def careless (s : Shared) : CallEvent → Bool
  | .begin _ (.apply address bytes _ _) _ =>
      !bytes.isEmpty && !overlaps address bytes.length 0 s.patched.registry &&
        trespassed address bytes.length s
  | .begin _ (.setEnabled id enabled) _ => opposes id enabled s
  | .begin _ (.remove id) _ => opposes id false s
  | .begin _ .restoreAll _ => false
  | .resume thread _ =>
      match s.calls[thread]? with
      | some (.restore (id :: _) _ _) => opposes id false s
      | some (.erase id) => strands id s
      | _ => false

def CallsCareful (s : Shared) (event : CallEvent) : Prop := careless s event = false

instance (s : Shared) (event : CallEvent) : Decidable (CallsCareful s event) :=
  inferInstanceAs (Decidable (_ = _))

theorem Coherent.answered (before : Coherent base p calls book) (thread : Nat)
    (reply : Result (Option Nat))
    (quiet : ∀ old, calls[thread]? = some old → old.flags = none ∧ old.records = none) :
    Coherent base p (proceed thread calls (.finished reply)) book :=
  before.idle thread (.finished reply) quiet nofun nofun nofun

/-- A reserved range shows the target's own bytes until its patch is written. -/
theorem Coherent.claimed_slice (before : Coherent base p calls book) {claim : Claim}
    (claimed : Claimed p.registry claim) (unbooked : book claim.id = none)
    (inUserSpace : claim.address + claim.bytes.length ≤ userSpaceEnd) :
    slice p.memory claim.address claim.bytes.length =
      slice base claim.address claim.bytes.length := by
  apply before.ground.laid.slice_clear
  intro id layer shown
  refine before.ground.clear _ claimed inUserSpace id layer ?_ shown
  rintro rfl
  exact Option.some_ne_none _ (shown.symm.trans unbooked)

theorem Coherent.withdrawn (before : Coherent base p calls book) {thread id : Nat} {stage : Stage}
    {failure : Failure} (present : calls[thread]? = some stage) (claims : stage.claims = some id)
    (quiet : stage.flags = none ∧ stage.records = none)
    (reserved : ∃ range ∈ p.registry.reserved, range.id = id) (unbooked : book id = none) :
    Coherent base p (proceed thread calls (.pending (.applyRelease id failure))) book := by
  apply before.idle thread
  · intro old pending
    cases present.symm.trans pending
    exact quiet
  · rintro stage ⟨⟩
    exact ⟨reserved, unbooked⟩
  · rintro other subject ⟨⟩ held
    cases held
    exact ⟨stage, present, claims⟩
  · rintro other subject enabled ⟨⟩ held
    contradiction

theorem coherent_begin {s : Shared} (before : Coherent base s.patched s.calls book)
    {thread : Nat} {request : Request} {access : Access}
    (careful : CallsCareful s (.begin thread request access)) (fresh : s.calls[thread]? = none) :
    Coherent base ⟨(beginCall access s.patched.registry request).1, s.patched.memory⟩
      (proceed thread s.calls (beginCall access s.patched.registry request).2) book := by
  have quiet : ∀ old, s.calls[thread]? = some old → old.flags = none ∧ old.records = none :=
    fun old pending => absurd (fresh.symm.trans pending) (Option.some_ne_none old).symm
  cases request with
  | apply address bytes description originalText =>
      dsimp only [beginCall]
      split
      · exact before.answered thread _ quiet
      · rename_i nonempty
        split
        · exact before.answered thread _ quiet
        · split
          · exact before.answered thread _ quiet
          · rename_i claimed id reserved
            have clear := (reserve_ok reserved).1
            refine before.reserve description originalText ?_ ?_ fresh reserved
            · rw [List.isEmpty_iff] at nonempty
              exact List.length_pos_of_ne_nil nonempty
            · simpa [CallsCareful, careless, nonempty, clear] using careful
  | setEnabled id enabled => exact before.beginToggle thread id enabled .done careful quiet
  | remove id => exact before.beginToggle thread id false .erase careful quiet
  | restoreAll =>
      apply before.idle thread _ quiet
      · rintro stage ⟨⟩
        trivial
      · rintro stage id ⟨⟩ held
        contradiction
      · rintro stage id enabled ⟨⟩ held
        contradiction

theorem coherent_resume {s : Shared} (before : Coherent base s.patched s.calls book)
    {thread : Nat} {stage : Stage} {access : Access}
    (careful : CallsCareful s (.resume thread access)) (present : s.calls[thread]? = some stage) :
    ∃ turned, Coherent base (advance access s.patched stage).1
      (proceed thread s.calls (advance access s.patched stage).2) turned := by
  have stands := before.stands thread stage present
  have only : ∀ old, s.calls[thread]? = some old → old = stage :=
    fun old pending => (Option.some.inj (present.symm.trans pending)).symm
  cases stage with
  | applyRead claim =>
      obtain ⟨claimed, nonempty, unbooked⟩ := stands
      refine ⟨book, ?_⟩
      dsimp only [advance]
      split
      · exact before.withdrawn present rfl ⟨rfl, rfl⟩ ⟨_, claimed, rfl⟩ unbooked
      · rename_i original read
        obtain ⟨genuine, inUserSpace⟩ := readOriginal_ok read nonempty
        rw [before.claimed_slice claimed unbooked inUserSpace] at genuine
        apply before.idle thread
        · exact fun old pending => only old pending ▸ ⟨rfl, rfl⟩
        · rintro stage ⟨⟩
          exact ⟨claimed, nonempty, unbooked, genuine, inUserSpace⟩
        · rintro stage id ⟨⟩ held
          exact ⟨_, present, held⟩
        · rintro stage id enabled ⟨⟩ held
          contradiction
  | applyWrite claim original =>
      obtain ⟨claimed, nonempty, unbooked, _⟩ := stands
      dsimp only [advance]
      split
      · rename_i memory failure written
        rw [writePatch_error written]
        exact ⟨book, before.withdrawn present rfl ⟨rfl, rfl⟩ ⟨_, claimed, rfl⟩ unbooked⟩
      · rename_i memory written
        rw [writePatch_ok written]
        exact ⟨_, before.written present⟩
  | applyRecord claim original => exact ⟨book, before.recordPatch _ present⟩
  | applyRelease id failure => exact ⟨book, before.released _ present⟩
  | toggleWrite id enabled address bytes next =>
      dsimp only [advance]
      rcases writeToggle_cases access enabled address bytes s.patched.memory with
        ok | ⟨failure, failed⟩
      · rw [ok]
        cases shown : book id with
        | none => exact ⟨book, before.strayed shown present⟩
        | some layer =>
            obtain ⟨rfl, rfl⟩ := stands.2.layer layer shown
            exact ⟨_, before.turned shown present⟩
      · rw [failed]
        dsimp only
        refine ⟨book, before.idle thread _ ?_ ?_ ?_ ?_⟩
        · exact fun old pending => only old pending ▸ ⟨rfl, rfl⟩
        · exact fun stage pending => stands_follow pending fun refused => absurd refused (by simp)
        · intro stage id pending held
          exact absurd held (by simp [(follow_quiet pending).1])
        · intro stage id enabled pending held
          exact absurd held (by simp [(follow_quiet pending).2])
  | toggleFlag id enabled next => exact ⟨book, before.flagged present⟩
  | erase id =>
      rw [CallsCareful, careless, present] at careful
      exact ⟨_, before.erased _ present careful⟩
  | restore ids failures total =>
      have quiet : ∀ old, s.calls[thread]? = some old → old.flags = none ∧ old.records = none :=
        fun old pending => only old pending ▸ ⟨rfl, rfl⟩
      cases ids with
      | nil => exact ⟨book, before.answered thread _ quiet⟩
      | cons id rest =>
          rw [CallsCareful, careless, present] at careful
          exact ⟨book, before.beginToggle thread id false _ careful quiet⟩

/-- One careful step of any thread keeps the registry coherent with some book. -/
theorem coherent_callStep {s : Shared} {event : CallEvent}
    (before : ∃ book, Coherent base s.patched s.calls book) (careful : CallsCareful s event) :
    ∃ book, Coherent base (callStep s event).patched (callStep s event).calls book := by
  obtain ⟨book, before⟩ := before
  cases event with
  | begin thread request access =>
      cases running : s.calls[thread]? with
      | some stage =>
          simp only [callStep, running]
          exact ⟨book, before⟩
      | none =>
          simp only [callStep, running]
          exact ⟨book, coherent_begin before careful running⟩
  | resume thread access =>
      cases running : s.calls[thread]? with
      | none =>
          simp only [callStep, running]
          exact ⟨book, before⟩
      | some stage =>
          simp only [callStep, running]
          exact coherent_resume before careful running

theorem coherent_start (base : Nat → UInt8) :
    Coherent base ⟨{}, base⟩ ∅ (fun _ => none) := by
  refine ⟨⟨⟨List.nodup_nil, nofun, nofun⟩, Laid.bare base, Nat.one_pos, nofun, nofun, nofun⟩,
    ?_, nofun, nofun, ?_, ?_⟩
  · intro thread stage present
    simp at present
  · intro first second one other id present
    simp at present
  · intro first second one other id here there present
    simp at present

/-- With no call in progress the book is the table of records. -/
theorem Coherent.layersOf_eq (coherent : Coherent base p calls book)
    (quiescent : ∀ thread : Nat, calls[thread]? = none) : layersOf p.registry.patches = book := by
  have recorded : ∀ patch ∈ p.registry.patches, book patch.id = some patch.layer := by
    intro patch member
    obtain ⟨up, shown, rfl | ⟨thread, stage, present, _⟩⟩ := coherent.recorded patch member
    · exact shown
    · exact absurd (present.symm.trans (quiescent thread)) (Option.some_ne_none stage)
  funext id
  cases present : layersOf p.registry.patches id with
  | some layer =>
      obtain ⟨patch, member, rfl, rfl⟩ := layersOf_eq_some present
      exact (recorded patch member).symm
  | none =>
      cases shown : book id with
      | none => rfl
      | some layer =>
          rcases coherent.booked id layer shown with ⟨patch, member, same⟩ |
            ⟨thread, stage, pending, _⟩
          · exact absurd same (layersOf_eq_none.mp present patch member)
          · exact absurd (pending.symm.trans (quiescent thread)) (Option.some_ne_none stage)

/-- In every interleaving whose steps are careful, every record keeps the target's own
bytes, and whenever no call is in progress the target is its unpatched self under the
enabled records: no patch without a record, no flag that memory does not bear out. -/
theorem calls_consistent {s : Shared}
    (reached : Runs.Reached callStep CallsCareful ⟨⟨{}, base⟩, ∅⟩ s) :
    (∀ patch ∈ s.patched.registry.patches,
        patch.originalBytes = slice base patch.address patch.size) ∧
      ((∀ thread : Nat, s.calls[thread]? = none) →
        s.patched.memory = covered base (s.patched.registry.patches.map Patch.layer) ∧
        ∀ patch ∈ s.patched.registry.patches, slice s.patched.memory patch.address patch.size =
          if patch.enabled then patch.patchedBytes else patch.originalBytes) := by
  obtain ⟨book, coherent⟩ : ∃ book, Coherent base s.patched s.calls book :=
    reached.invariant ⟨_, coherent_start base⟩ fun _ _ => coherent_callStep
  refine ⟨?_, fun quiescent => ?_⟩
  · intro patch member
    obtain ⟨up, shown, _⟩ := coherent.recorded patch member
    exact coherent.ground.laid.genuine _ _ shown
  · have laid := coherent.ground.laid
    rw [← coherent.layersOf_eq quiescent] at laid
    exact ⟨memory_eq_covered coherent.ground.tidy laid, fun patch member =>
      laid.shown _ _ (layersOf_of_mem coherent.ground.tidy.ids member)⟩

/-- One thread re-enables a patch while another removes it: between the lookup of the
first and its write, the second finds the patch disabled and erases the record. -/
def strandedPatch : List CallEvent :=
  [.begin 1 (.apply 0x1000 [0x90] "" "") {}, .resume 1 {}, .resume 1 {}, .resume 1 {},
    .begin 1 (.setEnabled 1 false) {}, .resume 1 {}, .resume 1 {},
    .begin 1 (.setEnabled 1 true) {}, .begin 2 (.remove 1) {}, .resume 2 {}, .resume 1 {},
    .resume 1 {}]

/-- An unpatched target of one byte value, and nobody calling. -/
def unpatched : Shared := ⟨⟨{}, fun _ => 0x33⟩, ∅⟩

theorem strandedPatch_inconsistent :
    (∀ event ∈ strandedPatch, event.access = {}) ∧
      (Runs.run callStep unpatched strandedPatch).calls.isEmpty = true ∧
      (Runs.run callStep unpatched strandedPatch).patched.registry.patches = [] ∧
      (Runs.run callStep unpatched strandedPatch).patched.memory 0x1000 = 0x90 ∧
      (Runs.run callStep unpatched strandedPatch).patched.memory ≠ covered (fun _ => 0x33) [] := by
  have patched : (Runs.run callStep unpatched strandedPatch).patched.memory 0x1000 = 0x90 := by
    decide
  refine ⟨?_, by decide, by decide, patched, ?_⟩
  · simp [strandedPatch, CallEvent.access]
  · intro same
    rw [same] at patched
    exact absurd patched (by decide)

/-- The same two threads when the removal waits for the toggle. -/
def orderedCalls : List CallEvent :=
  strandedPatch.take 8 ++ [.resume 1 {}, .begin 2 (.apply 0x1001 [0xEB] "" "") {}, .resume 1 {},
    .resume 2 {}, .resume 2 {}, .begin 1 (.remove 1) {}, .resume 2 {}, .resume 1 {}, .resume 1 {},
    .resume 1 {}]

theorem orderedCalls_consistent :
    (Runs.run callStep unpatched orderedCalls).patched.memory =
      overlay (fun _ => 0x33) 0x1001 [0xEB] := by
  have follows : Runs.Follows callStep CallsCareful unpatched orderedCalls := by decide
  have quiescent : (Runs.run callStep unpatched orderedCalls).calls.isEmpty = true := by decide
  have memory := ((calls_consistent follows.reached).2
    fun thread => TreeMap.getElem?_of_isEmpty quiescent).1
  exact memory.trans rfl

end PointerLab.PatchRegistry
