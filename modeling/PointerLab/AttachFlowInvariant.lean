import PointerLab.AttachFlow
import PointerLab.PatchRegistryInvariant
import PointerLab.Runs

set_option autoImplicit false

/- What was learned from a process goes back into that process only, as long as no
attach succeeds while something learned from another one is still held. -/
namespace PointerLab.AttachFlow

open TargetSession
open PatchRegistry (setEnabled_ids restoreEach_ids remove_ids)

/-- Everything held that a call could write was learned from the process. -/
def LearnedFrom (process : Process) (s : App) : Prop :=
  (∀ patch ∈ s.registry.patches, s.origins patch.id = some process) ∧
    (s.speed.requestedScale ≠ 0 → s.located = some process)

/-- An attached session holds nothing of another process, and no write so far took
anything from one process into another. -/
structure Own (s : App) : Prop where
  held : ∀ process, s.session = some process → LearnedFrom process s
  written : ∀ write ∈ s.written, write.learnedFrom = some write.into

variable {s : App}

theorem apply_patches (access : Access) (address : Nat) (bytes : List UInt8)
    (description originalText : String) (target : PatchRegistry.Patched) :
    let after := (PatchRegistry.apply access address bytes description originalText target).1
    after.registry.patches = target.registry.patches ∨
      ∃ patch : PatchRegistry.Patch, patch.id = target.registry.nextId ∧
        after.registry.patches = target.registry.patches ++ [patch] := by
  unfold PatchRegistry.apply
  split
  · exact Or.inl rfl
  · split
    · exact Or.inl rfl
    · split
      · exact Or.inl rfl
      · rename_i claimed id reserved
        obtain ⟨_, rfl, rfl⟩ := PatchRegistry.reserve_ok reserved
        split
        · exact Or.inl rfl
        · split
          · exact Or.inl rfl
          · exact Or.inr ⟨_, rfl, rfl⟩

/-- After a call every record is an old one or the new patch of an `apply`. -/
theorem step_origins (process : Process) (target : PatchRegistry.Patched)
    (origins : Nat → Option Process) (operation : PatchRegistry.Operation)
    (learned : ∀ patch ∈ target.registry.patches, origins patch.id = some process) :
    ∀ patch ∈ (PatchRegistry.step target operation).registry.patches,
      originsAfter process target.registry origins operation patch.id = some process := by
  have old : ∀ id ∈ target.registry.patches.map PatchRegistry.Patch.id,
      origins id = some process := by
    intro id member
    obtain ⟨patch, inTable, rfl⟩ := List.mem_map.mp member
    exact learned patch inTable
  intro patch member
  have inIds := List.mem_map_of_mem (f := PatchRegistry.Patch.id) member
  cases operation with
  | apply address bytes description originalText access =>
      by_cases new : patch.id = target.registry.nextId
      · exact new ▸ Function.update_self ..
      · refine (Function.update_of_ne new ..).trans ?_
        rcases apply_patches access address bytes description originalText target with
          same | ⟨added, number, more⟩
        · exact learned patch (same ▸ member)
        · have cases_added : patch ∈ target.registry.patches ++ [added] := more ▸ member
          rcases List.mem_append.mp cases_added with inTable | last
          · exact learned patch inTable
          · exact absurd (List.mem_singleton.mp last ▸ number) new
  | setEnabled id enabled access =>
      exact old _ (setEnabled_ids access id enabled target ▸ inIds)
  | remove id access => exact old _ (remove_ids access id target inIds)
  | restoreAll access => exact old _ (restoreEach_ids access _ target ▸ inIds)

theorem toggledBy_mem {r : PatchRegistry.Registry} {id other : Nat} {enabled : Bool}
    (member : other ∈ toggledBy id enabled r) :
    other ∈ r.patches.map PatchRegistry.Patch.id := by
  unfold toggledBy at member
  split at member
  · rename_i found
    obtain ⟨layer, present, _⟩ := PatchRegistry.lookupToggle_write found
    obtain ⟨patch, inTable, rfl, _⟩ := PatchRegistry.layersOf_eq_some present
    exact List.mem_singleton.mp member ▸ List.mem_map_of_mem inTable
  · contradiction

theorem toggledEach_mem (access : Nat → Access) (ids : List Nat) (target : PatchRegistry.Patched)
    {other : Nat} (member : other ∈ toggledEach access ids target) :
    other ∈ target.registry.patches.map PatchRegistry.Patch.id := by
  induction ids generalizing target with
  | nil => contradiction
  | cons id rest ih =>
      rcases List.mem_append.mp member with here | later
      · exact toggledBy_mem here
      · exact setEnabled_ids (access id) id false target ▸ ih _ later

/-- A call writes patches of the table only. -/
theorem toggled_mem {target : PatchRegistry.Patched} {operation : PatchRegistry.Operation}
    {id : Nat} (member : id ∈ toggled target operation) :
    id ∈ target.registry.patches.map PatchRegistry.Patch.id := by
  cases operation with
  | apply => contradiction
  | setEnabled => exact toggledBy_mem member
  | remove => exact toggledBy_mem member
  | restoreAll access => exact toggledEach_mem access _ target member

theorem own_patchCall (own : Own s) (operation : PatchRegistry.Operation) :
    Own (patchCall s operation) := by
  cases session : s.session with
  | none =>
      have detached : (patchCall s operation).session = none := by simp only [patchCall, session]
      refine ⟨fun process attached => ?_, ?_⟩
      · exact absurd (detached.symm.trans attached) (Option.some_ne_none process).symm
      · simpa only [patchCall, session] using own.written
  | some process =>
      have held := own.held process session
      simp only [patchCall, session]
      refine ⟨?_, ?_⟩
      · intro other attached
        have same : process = other := Option.some.inj attached
        subst same
        exact ⟨step_origins process _ s.origins _ held.1, held.2⟩
      · intro write member
        rcases List.mem_append.mp member with old | new
        · exact own.written write old
        · obtain ⟨id, written, rfl⟩ := List.mem_map.mp new
          obtain ⟨patch, inTable, rfl⟩ := List.mem_map.mp (toggled_mem written)
          exact held.1 patch inTable

theorem own_patchCalls (own : Own s) (operations : List PatchRegistry.Operation) :
    Own (operations.foldl patchCall s) := by
  induction operations generalizing s with
  | nil => exact own
  | cons operation rest ih => exact ih (own_patchCall own operation)

theorem load_error {attached : Bool} {payload : SpeedController.Payload}
    {c after : SpeedController.Controller} {failure : Failure}
    (result : SpeedController.load attached payload c = (after, .error failure)) : after = c := by
  have located : ∀ exports, ∀ failure : Failure,
      (SpeedController.locateControlBlock exports c).2 = .error failure →
        (SpeedController.locateControlBlock exports c).1 = c := by
    intro exports failure refused
    unfold SpeedController.locateControlBlock at refused ⊢
    split
    · rfl
    · dsimp only at refused ⊢
      split
      · rfl
      · rename_i known
        rw [if_neg known] at refused
        contradiction
  have same : (SpeedController.load attached payload c).2 = .error failure →
      (SpeedController.load attached payload c).1 = c := by
    unfold SpeedController.load
    split
    · exact fun _ => rfl
    · split
      · exact fun _ => rfl
      · split
        · exact located payload.exports failure
        · split
          · exact fun _ => rfl
          · split
            · exact fun _ => rfl
            · split
              · exact fun _ => rfl
              · exact located payload.exports failure
  rw [result] at same
  exact same rfl

theorem load_attached {attached : Bool} {payload : SpeedController.Payload}
    {c after : SpeedController.Controller}
    (result : SpeedController.load attached payload c = (after, .ok ())) : attached = true := by
  cases attached with
  | true => rfl
  | false => exact absurd (congrArg Prod.snd result) (by simp [SpeedController.load, fail])

/-- Whatever a `load` leaves known lies in the attached process. -/
theorem own_load (own : Own s) (payload : SpeedController.Payload) :
    Own { s with
      speed := (SpeedController.load s.session.isSome payload s.speed).1
      located := locatedAfter (SpeedController.load s.session.isSome payload s.speed).2 s } := by
  refine ⟨fun process attached => ?_, own.written⟩
  have held := own.held process attached
  refine ⟨held.1, fun known => ?_⟩
  cases result : SpeedController.load s.session.isSome payload s.speed with
  | mk after reply =>
      cases reply with
      | ok value => exact attached
      | error failure =>
          have same := load_error result
          simp only [result, same] at known
          exact held.2 known

theorem own_speedReset (own : Own s) (first second : Access) : Own (speedReset first second s) := by
  unfold speedReset
  split
  · exact own
  · rename_i process session
    dsimp only
    split
    · exact own
    · rename_i known
      refine ⟨own.held, ?_⟩
      intro write member
      rcases List.mem_append.mp member with old | new
      · exact own.written write old
      · cases List.mem_singleton.mp new
        exact (own.held process session).2 fun zero => known (Or.inl zero)

/-- The controller before the write of `setScale`: as it was, or newly loaded. -/
theorem prepareScale_cases (attached : Bool) (payload : SpeedController.Payload)
    (scale : SpeedController.Scale) (c : SpeedController.Controller) :
    (∃ failure, SpeedController.prepareScale attached payload scale c = (c, .error failure)) ∨
      (c.requestedScale ≠ 0 ∧
        SpeedController.prepareScale attached payload scale c = (c, .ok c.requestedScale)) ∨
      (c.requestedScale = 0 ∧ attached = true ∧ ∃ after,
        SpeedController.prepareScale attached payload scale c = (after, .ok after.requestedScale)) := by
  unfold SpeedController.prepareScale
  split
  · exact Or.inl ⟨_, rfl⟩
  · split
    · rename_i known
      exact Or.inr (Or.inl ⟨known, rfl⟩)
    · rename_i unknown
      split
      · rename_i after failure result
        exact Or.inl ⟨failure, by rw [load_error result]⟩
      · rename_i after result
        exact Or.inr (Or.inr ⟨by simpa using unknown, load_attached result, after, rfl⟩)

theorem own_setScale (own : Own s) (access : Access) (payload : SpeedController.Payload)
    (scale : SpeedController.Scale) : Own (setScale access payload scale s) := by
  have wrote : ∀ process located, s.session = some process → located = some process →
      ∀ write ∈ s.written ++ [(⟨process, located⟩ : Write)],
        write.learnedFrom = some write.into := by
    intro process located _ own_block write member
    rcases List.mem_append.mp member with old | new
    · exact own.written write old
    · cases List.mem_singleton.mp new
      exact own_block
  unfold setScale
  rcases prepareScale_cases s.session.isSome payload scale s.speed with
    ⟨failure, result⟩ | ⟨known, result⟩ | ⟨unknown, attached, after, result⟩
  · rw [result]
    simp only [locatedAfter, ite_self]
    split
    · contradiction
    · exact own
  · rw [result]
    simp only [known, ↓reduceIte]
    split
    · rename_i process address session _
      have held := own.held process session
      refine ⟨fun other attached => ?_, wrote process s.located session (held.2 known)⟩
      exact own.held other attached
    · exact own
  · obtain ⟨process, session⟩ := Option.isSome_iff_exists.mp attached
    have held := own.held process session
    rw [result]
    simp only [unknown, ↓reduceIte, locatedAfter, session]
    refine ⟨fun other attached => ?_, wrote process (some process) session rfl⟩
    have same : process = other := Option.some.inj attached
    subst same
    exact ⟨held.1, fun _ => rfl⟩

theorem own_detachAction (own : Own s) (liveScripts : Nat) (undo : Undo) :
    Own (detachAction liveScripts undo s) := by
  have off : Own (if liveScripts > 0 then undo.scripts.foldl patchCall s else s) := by
    split
    · exact own_patchCalls own undo.scripts
    · exact own
  exact ⟨nofun, (own_speedReset off undo.first undo.second).written⟩

/-- Asking changes nothing that a call could write. -/
theorem own_confirmAction (own : Own s) (confirmation : Confirmation) :
    Own (confirmAction confirmation s) := by
  unfold confirmAction
  split
  · exact own
  · exact ⟨own.held, own.written⟩

theorem own_requestDetach (own : Own s) (live : Live) (undo : Undo) :
    Own (requestDetach live undo s) := by
  unfold requestDetach
  split
  · exact own_confirmAction own _
  · exact own_detachAction own live.scripts undo

/-- An attach is safe when what is held was learned from the process it opens. -/
theorem own_attach (own : Own s) (pid : Nat) (opened : Option Nat)
    (careful : ∀ birth ∈ opened, LearnedFrom ⟨pid, birth⟩ s) : Own (attach pid opened s) := by
  cases opened with
  | none => exact own
  | some birth =>
      refine ⟨fun process attached => ?_, own.written⟩
      have same : ⟨pid, birth⟩ = process := Option.some.inj attached
      exact same ▸ careful birth rfl

/-- Whether the step attaches with no detach before it. -/
def attaches (s : App) : Event → Option (Nat × Option Nat)
  | .attachButton pid opened => if asksFirst pid s then none else some (pid, opened)
  | .confirm opened live _ =>
      match s.pending with
      | some (.attach pid) => if warns live s then some (pid, opened) else none
      | _ => none
  | .mcpAttach pid opened => some (pid, opened)
  | .luaAttach pid opened => some (pid, opened)
  | _ => none

/-- A step that attaches with no detach before it opens the process that everything
held was learned from. -/
def Careful (s : App) (event : Event) : Prop :=
  ∀ target ∈ attaches s event, ∀ birth ∈ target.2, LearnedFrom ⟨target.1, birth⟩ s

instance (process : Process) (s : App) : Decidable (LearnedFrom process s) :=
  inferInstanceAs (Decidable (_ ∧ _))

instance (s : App) (event : Event) : Decidable (Careful s event) :=
  inferInstanceAs (Decidable (∀ _ ∈ _, ∀ _ ∈ _, _))

theorem learned_detached (process : Process) (liveScripts : Nat) (undo : Undo) :
    LearnedFrom process (detachAction liveScripts undo s) :=
  ⟨nofun, fun known => absurd rfl known⟩

theorem own_confirm {opened : Option Nat} {live : Live} {undo : Undo} (own : Own s)
    (careful : Careful s (.confirm opened live undo)) : Own (confirm opened live undo s) := by
  unfold confirm
  split
  · exact own
  · rename_i confirmation pending
    have cleared : Own { s with pending := none } := ⟨own.held, own.written⟩
    cases confirmation with
    | detach liveScripts => exact own_detachAction cleared liveScripts undo
    | other => exact cleared
    | attach pid =>
        apply own_attach (own_requestDetach cleared live undo)
        intro birth opens
        cases warning : warns live s with
        | false =>
            have now : warns live { s with pending := none } = false := warning
            simp only [requestDetach, now, Bool.false_eq_true, ↓reduceIte]
            exact learned_detached _ live.scripts undo
        | true =>
            have now : warns live { s with pending := none } = true := warning
            have direct : attaches s (.confirm opened live undo) = some (pid, opened) := by
              simp only [attaches, pending, warning, ↓reduceIte]
            have held := careful (pid, opened) direct birth opens
            simp only [requestDetach, now, ↓reduceIte, confirmAction]
            exact held

theorem own_step {event : Event} (own : Own s) (careful : Careful s event) :
    Own (step s event) := by
  cases event with
  | attachButton pid opened =>
      cases asks : asksFirst pid s with
      | true =>
          simp only [step, attachButton, asks, ↓reduceIte]
          exact own_confirmAction own _
      | false =>
          simp only [step, attachButton, asks, Bool.false_eq_true, ↓reduceIte]
          apply own_attach own
          apply careful (pid, opened)
          simp only [attaches, asks, Bool.false_eq_true, ↓reduceIte, Option.mem_def]
  | detachButton live undo =>
      simp only [step]
      split
      · exact own_requestDetach own live undo
      · exact own
  | confirm opened live undo => exact own_confirm own careful
  | cancel => exact ⟨own.held, own.written⟩
  | ask => exact own_confirmAction own .other
  | mcpAttach pid opened => exact own_attach own pid opened (careful (pid, opened) rfl)
  | mcpDetach => exact ⟨nofun, own.written⟩
  | luaAttach pid opened => exact own_attach own pid opened (careful (pid, opened) rfl)
  | luaDetach => exact ⟨nofun, own.written⟩
  | patch operation => exact own_patchCall own operation
  | speedLoad payload => exact own_load own payload
  | setScale access payload scale => exact own_setScale own access payload scale
  | speedReset first second => exact own_speedReset own first second

/-- In every run whose attaches are careful, a record's bytes go only into the process
its originals were read from, and speed requests only into the process the control block
was located in. -/
theorem written_into_own {memory : Process → Nat → UInt8}
    (reached : Runs.Reached step Careful { memory := memory } s) :
    ∀ write ∈ s.written, write.learnedFrom = some write.into := by
  have own : Own s :=
    reached.invariant ⟨nofun, nofun⟩ fun _ _ own careful => own_step own careful
  exact own.written

/-- A patch is live when the panel's Attach is pressed on another process and its dialog
confirmed: the detach asks in turn, and the attach does not wait for the answer. -/
def panelSwitch : List Event :=
  [.attachButton 100 (some 1), .patch (.apply 0x1000 [0x90] "" "" {}),
    .attachButton 200 (some 2), .confirm (some 2) {} {}, .patch (.setEnabled 1 false {})]

/-- The same switch by the MCP tool. -/
def toolSwitch : List Event :=
  [.mcpAttach 100 (some 1), .patch (.apply 0x1000 [0x90] "" "" {}), .mcpAttach 200 (some 2),
    .patch (.remove 1 {})]

/-- The two processes hold different bytes at the address. -/
def twoProcesses : App := { memory := fun process _ => if process.pid = 100 then 0x33 else 0x44 }

theorem switches_write_foreign :
    (Runs.run step twoProcesses panelSwitch).written = [⟨⟨200, 2⟩, some ⟨100, 1⟩⟩] ∧
      (Runs.run step twoProcesses panelSwitch).memory ⟨200, 2⟩ 0x1000 = 0x33 ∧
      (Runs.run step twoProcesses toolSwitch).written = [⟨⟨200, 2⟩, some ⟨100, 1⟩⟩] ∧
      (Runs.run step twoProcesses toolSwitch).memory ⟨200, 2⟩ 0x1000 = 0x33 := by
  decide

/-- The switch in two steps: the detach is confirmed before the attach. -/
def askedSwitch : List Event :=
  [.attachButton 100 (some 1), .patch (.apply 0x1000 [0x90] "" "" {}), .patch (.setEnabled 1 false {}),
    .patch (.setEnabled 1 true {}), .detachButton {} {}, .confirm none {} {},
    .attachButton 200 (some 2), .patch (.apply 0x1000 [0x91] "" "" {}), .patch (.setEnabled 2 false {})]

theorem askedSwitch_own :
    (Runs.run step twoProcesses askedSwitch).written.length = 3 ∧
      ∀ write ∈ (Runs.run step twoProcesses askedSwitch).written,
        write.learnedFrom = some write.into := by
  have follows : Runs.Follows step Careful twoProcesses askedSwitch := by decide
  exact ⟨by decide, written_into_own follows.reached⟩

end PointerLab.AttachFlow
