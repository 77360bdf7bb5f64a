import PointerLab.DebugPumpSession
import PointerLab.DebugPumpTraps

set_option autoImplicit false

/- What the shutdown takes back: every int3 and every debug register, for any calls that
land between its steps. -/
namespace PointerLab.DebugPump

open Domain Std

variable {original : Nat → UInt8} {own : Nat → BitVec 64} {s : Pump} {access : Access}

theorem anyHardwareArmed_iff (s : Pump) :
    anyHardwareArmed s = true ↔
      ∃ (address : Nat) (info : BreakpointInfo), s.breakpoints[address]? = some info ∧
      isHardware info.kind = true ∧ info.enabled = true := by
  simp only [anyHardwareArmed, List.any_eq_true, Bool.and_eq_true, Prod.exists,
    TreeMap.mem_toList_iff_getElem?_eq_some]

/-- Without an armed hardware entry the registers are programmed to nothing. -/
theorem debugRegisters_unarmed (unarmed : anyHardwareArmed s = false) :
    debugRegisters s = (fun _ => 0, 0) := by
  unfold anyHardwareArmed at unarmed
  unfold debugRegisters
  generalize s.breakpoints.toList = entries at unarmed
  induction entries with
  | nil => rfl
  | cons entry rest ih =>
      obtain ⟨address, info⟩ := entry
      rw [List.any_cons, Bool.or_eq_false_iff] at unarmed
      rw [List.foldl_cons]
      dsimp only at unarmed ⊢
      cases info.slot with
      | none => exact ih unarmed.2
      | some slot =>
          simp only [unarmed.1, Bool.false_eq_true, ↓reduceIte]
          exact ih unarmed.2

/-- While no hardware entry is armed, the debug control of every thread is cleared or its
own. -/
def Quiet (own : Nat → BitVec 64) (s : Pump) : Prop :=
  anyHardwareArmed s = false → ∀ (threadId : Nat) (context : ThreadContext),
    s.threads[threadId]? = some context →
      context.debugControl = 0 ∨ context.debugControl = own threadId

/-- Programming every thread from the table. -/
theorem quiet_programmed (programs : ∀ threadId, access.program threadId = true) (s : Pump) :
    Quiet own (applyDebugRegistersToAllThreads access s) := by
  intro unarmed threadId context present
  have registers := debugRegisters_unarmed (s := s) unarmed
  simp only [applyDebugRegistersToAllThreads, TreeMap.getElem?_map, Option.map_eq_some_iff,
    programs, ↓reduceIte] at present
  obtain ⟨_, _, rfl⟩ := present
  left
  simp only [writeDebugRegisters, registers, ThreadContext.programDebugRegisters]
  split <;> rfl

/-- A step that keeps every entry armed as it was, adds none and, of each thread, keeps the
debug control or clears it. -/
structure Tame (s t : Pump) : Prop where
  attached : t.attached = s.attached
  fresh : ∀ address : Nat, s.breakpoints[address]? = none → t.breakpoints[address]? = none
  entries : ∀ (address : Nat) (info : BreakpointInfo), s.breakpoints[address]? = some info →
    ∃ after : BreakpointInfo, t.breakpoints[address]? = some after ∧ after.kind = info.kind ∧
      after.enabled = info.enabled
  controls : ∀ (threadId : Nat) (context : ThreadContext), t.threads[threadId]? = some context →
    context.debugControl = 0 ∨ ∃ before : ThreadContext, s.threads[threadId]? = some before ∧
      context.debugControl = before.debugControl

/-- A step that touches neither the table nor the threads. -/
theorem Tame.same {t : Pump} (attached : t.attached = s.attached)
    (table : t.breakpoints = s.breakpoints) (threads : t.threads = s.threads) : Tame s t :=
  ⟨attached, fun _ absent => table ▸ absent, fun _ info present => ⟨info, table ▸ present, rfl, rfl⟩,
    fun _ context present => Or.inr ⟨context, threads ▸ present, rfl⟩⟩

theorem Tame.congr {t u : Pump} (tame : Tame s t) (attached : u.attached = t.attached)
    (table : u.breakpoints = t.breakpoints) (threads : u.threads = t.threads) : Tame s u :=
  ⟨attached.trans tame.attached, table ▸ tame.fresh, table ▸ tame.entries, threads ▸ tame.controls⟩

theorem Tame.trans {t u : Pump} (first : Tame s t) (second : Tame t u) : Tame s u := by
  refine ⟨second.attached.trans first.attached,
    fun address absent => second.fresh address (first.fresh address absent), ?_, ?_⟩
  · intro address info present
    obtain ⟨middle, there, kind, enabled⟩ := first.entries address info present
    obtain ⟨after, last, sameKind, sameEnabled⟩ := second.entries address middle there
    exact ⟨after, last, sameKind.trans kind, sameEnabled.trans enabled⟩
  · intro threadId context present
    rcases second.controls threadId context present with zero | ⟨middle, there, same⟩
    · exact Or.inl zero
    · rw [same]
      exact first.controls threadId middle there

/-- Writing back the context of a stopped thread. -/
theorem tame_setContext {threadId : Nat} (cpu : Cpu) {context : ThreadContext}
    (control : context.debugControl = (contextOf threadId cpu s).debugControl) :
    Tame s (setContext threadId context s) := by
  refine ⟨rfl, fun _ absent => absent, fun _ info present => ⟨info, present, rfl, rfl⟩,
    fun thread shown present => ?_⟩
  simp only [setContext] at present
  rw [Tables.getElem?_insert] at present
  split at present
  · rename_i here
    subst here
    obtain rfl := Option.some.inj present
    rw [control]
    cases known : s.threads[thread]? with
    | none => exact Or.inl (by simp [contextOf, known])
    | some before => exact Or.inr ⟨before, rfl, by simp [contextOf, known]⟩
  · exact Or.inr ⟨shown, present, rfl⟩

/-- Putting an entry in the place of one that is armed the same. -/
theorem tame_insert {address : Nat} {info entry : BreakpointInfo}
    (present : s.breakpoints[address]? = some entry) (kind : info.kind = entry.kind)
    (enabled : info.enabled = entry.enabled) :
    Tame s { s with breakpoints := s.breakpoints.insert address info } := by
  refine ⟨rfl, fun place absent => ?_, fun place shown there => ?_,
    fun _ context known => Or.inr ⟨context, known, rfl⟩⟩
  · rw [Tables.getElem?_insert, if_neg]
    · exact absent
    · rintro rfl
      exact absurd (present.symm.trans absent) (Option.some_ne_none entry)
  · rw [Tables.getElem?_insert]
    by_cases here : place = address
    · subst here
      obtain rfl := Option.some.inj (present.symm.trans there)
      exact ⟨info, if_pos rfl, kind, enabled⟩
    · exact ⟨shown, by rwa [if_neg here], rfl, rfl⟩

/-- A tame step stays quiet. -/
theorem Quiet.tame {t : Pump} (quiet : Quiet own s) (tame : Tame s t) : Quiet own t := by
  intro unarmed threadId context present
  have before : anyHardwareArmed s = false := by
    rw [Bool.eq_false_iff, ne_eq, anyHardwareArmed_iff] at unarmed ⊢
    rintro ⟨address, info, there, hardware, enabled⟩
    obtain ⟨after, kept, kind, sameEnabled⟩ := tame.entries address info there
    exact unarmed ⟨address, after, kept, kind ▸ hardware, sameEnabled ▸ enabled⟩
  rcases tame.controls threadId context present with zero | ⟨earlier, known, same⟩
  · exact Or.inl zero
  · rw [same]
    exact quiet before threadId earlier known

theorem tame_rewindThread (cpu : Cpu) (address threadId : Nat) :
    Tame s (rewindThread access cpu address threadId s) := by
  unfold rewindThread
  split
  · exact tame_setContext cpu rfl
  · exact .same rfl rfl rfl

theorem tame_rearm (address : Nat) (writes : access.write = none) :
    Tame s (rearm access address s) := by
  unfold rearm
  split
  · exact .same rfl rfl rfl
  · split
    · exact .same rfl rfl rfl
    · rw [writeByte_ok address int3 writes]
      exact .same rfl rfl rfl

theorem tame_handleBreakpoint (cpu : Cpu) (address threadId : Nat) (writes : access.write = none)
    (sets : access.setContext = true) :
    Tame s (handleBreakpoint access cpu address threadId s).1 := by
  have stale : Tame s (handleBreakpoint.stale access cpu address threadId s).1 := by
    unfold handleBreakpoint.stale
    split
    · exact tame_rewindThread cpu address threadId
    · exact .same rfl rfl rfl
  unfold handleBreakpoint
  split
  · exact stale
  · rename_i entry present
    split
    · exact stale
    · split
      · exact .same rfl rfl rfl
      · dsimp only
        rw [writeByte_ok address entry.originalByte writes]
        simp only [sets, Bool.not_true, Bool.false_eq_true, ↓reduceIte]
        generalize registers : { entry with lastHit := _ } = captured
        generalize counted : { entry with lastHit := _, hitCount := _ } = hit
        generalize flags : ThreadContext.orFlags trapFlag _ = context
        have captures := @tame_insert s address captured entry present (by rw [← registers])
          (by rw [← registers])
        have sets := @tame_setContext { s with breakpoints := s.breakpoints.insert address captured }
          threadId cpu context (by rw [← flags]; rfl)
        have counts := @tame_insert
          (setContext threadId context { s with breakpoints := s.breakpoints.insert address captured })
          address hit captured TreeMap.getElem?_insert_self (by rw [← counted, ← registers])
          (by rw [← counted, ← registers])
        exact (captures.trans (sets.trans counts)).congr rfl rfl rfl

theorem tame_handleHardwareHit (cpu : Cpu) (threadId : Nat) :
    Tame s (handleHardwareHit access cpu threadId s).1 := by
  unfold handleHardwareHit
  split
  · exact .same rfl rfl rfl
  · dsimp only
    split
    · exact .same rfl rfl rfl
    · split
      · dsimp only
        split
        · exact tame_setContext cpu rfl
        · exact .same rfl rfl rfl
      · rename_i address info found
        have present := firedEntry_present found
        dsimp only
        split
        · refine .trans ?_ (tame_setContext cpu ?_)
          · exact tame_insert present rfl rfl
          · split <;> rfl
        · exact tame_insert present rfl rfl

theorem tame_handleSoftwareStep (threadId : Nat) (writes : access.write = none) :
    Tame s (handleSoftwareStep access threadId s).1 := by
  unfold handleSoftwareStep
  split
  · exact .same rfl rfl rfl
  · rename_i address _
    have stepped : Tame s { s with stepping := s.stepping.erase threadId } := .same rfl rfl rfl
    exact stepped.trans (tame_rearm address writes)

theorem tame_handleSingleStep (cpu : Cpu) (threadId : Nat) (writes : access.write = none) :
    Tame s (handleSingleStep access cpu threadId s).1 := by
  unfold handleSingleStep
  split
  rename_i after verdict snapshot taken
  have hit : Tame s after := by
    split at taken
    · have same : after = (handleHardwareHit access cpu threadId s).1 := by rw [taken]
      exact same ▸ tame_handleHardwareHit cpu threadId
    · have same : s = after := congrArg Prod.fst taken
      exact same ▸ .same rfl rfl rfl
  exact hit.trans (tame_handleSoftwareStep threadId writes)

theorem tame_handleThreadExit (threadId : Nat) (writes : access.write = none) :
    Tame s (handleThreadExit access threadId s) := by
  unfold handleThreadExit
  split
  · exact .same rfl rfl rfl
  · rename_i address _
    have stepped : Tame s { s with stepping := s.stepping.erase threadId } := .same rfl rfl rfl
    dsimp only
    split
    · exact stepped
    · exact stepped.trans (tame_rearm address writes)

/-- Whether the checks of `addBreakpoint` pass. -/
def Addable (access : Access) (address : Nat) (kind : BreakpointKind) (length : Nat) (s : Pump) :
    Prop :=
  s.breakpoints[address]? = none ∧
    if isHardware kind then
      let length := if kind = .hardwareExecute then 1 else length
      isValidWatchLength length = true ∧ address % length = 0 ∧ freeDebugSlot s ≠ none
    else access.read = none ∧ s.memory address ≠ int3

/-- A call that passes its checks adds the breakpoint, any other call changes nothing. -/
theorem addBreakpoint_cases (address : Nat) (label : String) (kind : BreakpointKind)
    (length : Nat) (writes : access.write = none) :
    (s.attached = true ∧ Addable access address kind length s ∧
        (addBreakpoint access address label kind length s).2 = .ok ()) ∨
      ((addBreakpoint access address label kind length s).1 = s ∧
        (addBreakpoint access address label kind length s).2 ≠ .ok ()) := by
  unfold addBreakpoint
  by_cases attached : s.attached = true
  · by_cases free : s.breakpoints[address]? = none
    · have absent := Tables.contains_of_getElem? free
      simp only [attached, absent, Bool.not_true, Bool.false_eq_true, ↓reduceIte]
      by_cases hardware : isHardware kind = true
      · simp only [hardware, ↓reduceIte, addHardwareBreakpoint]
        by_cases valid : isValidWatchLength (if kind = .hardwareExecute then 1 else length) = true
        · by_cases aligned : address % (if kind = .hardwareExecute then 1 else length) = 0
          · cases slot : freeDebugSlot s with
            | none => simp [valid, aligned, fail]
            | some index =>
                refine Or.inl ⟨trivial, ⟨free, ?_⟩, by simp [valid, aligned]⟩
                rw [if_pos hardware, slot]
                exact ⟨valid, aligned, Option.some_ne_none index⟩
          · simp [valid, aligned, fail]
        · simp [valid, fail]
      · simp only [hardware, Bool.false_eq_true, ↓reduceIte]
        cases reads : access.read with
        | some failure => simp [readByte, reads, fail]
        | none =>
            rw [readByte_ok address reads, writeByte_ok address int3 writes]
            by_cases trap : s.memory address = int3
            · simp [trap, fail]
            · simp [trap, Addable, free, hardware, reads]
    · have present : s.breakpoints.contains address = true := by
        rw [TreeMap.contains_eq_isSome_getElem?, Option.isSome_iff_ne_none]
        exact free
      simp [attached, present, fail]
  · simp [attached, fail]

theorem sound_added (address : Nat) (label : String) (kind : BreakpointKind) (length : Nat)
    (sound : (ledger s).Sound original) (writes : access.write = none) :
    (ledger (addBreakpoint access address label kind length s).1).Sound original := by
  rcases @addBreakpoint_cases s access address label kind length writes with
    ⟨attached, addable, _⟩ | ⟨same, _⟩
  · obtain ⟨free, checks⟩ := addable
    by_cases hardware : isHardware kind = true
    · have absent := Tables.contains_of_getElem? free
      have added : addBreakpoint access address label kind length s =
          addHardwareBreakpoint access address label kind length s := by
        simp only [addBreakpoint, attached, absent, hardware, Bool.not_true, Bool.false_eq_true,
          ↓reduceIte]
      rwa [added, ledger_addHardwareBreakpoint address label kind length hardware free]
    · rw [if_neg hardware] at checks
      exact sound_addBreakpoint address label kind length sound checks.1 writes
  · rwa [same]

theorem quiet_addBreakpoint (address : Nat) (label : String) (kind : BreakpointKind)
    (length : Nat) (quiet : Quiet own s) (writes : access.write = none)
    (programs : ∀ threadId, access.program threadId = true) :
    Quiet own (addBreakpoint access address label kind length s).1 := by
  rcases @addBreakpoint_cases s access address label kind length writes with
    ⟨attached, ⟨free, checks⟩, _⟩ | ⟨same, _⟩
  · have absent := Tables.contains_of_getElem? free
    simp only [addBreakpoint, attached, absent, Bool.not_true, Bool.false_eq_true, ↓reduceIte]
    by_cases hardware : isHardware kind = true
    · simp only [hardware, ↓reduceIte] at checks ⊢
      obtain ⟨valid, aligned, slot⟩ := checks
      obtain ⟨index, found⟩ := Option.ne_none_iff_exists'.mp slot
      simp only [addHardwareBreakpoint, valid, aligned, found, Bool.not_true, Bool.false_eq_true,
        ↓reduceIte, ne_eq, not_true_eq_false]
      exact quiet_programmed programs _
    · simp only [hardware, Bool.false_eq_true, ↓reduceIte] at checks ⊢
      rw [readByte_ok address checks.1, writeByte_ok address int3 writes]
      simp only [checks.2, ↓reduceIte]
      intro unarmed threadId context present
      refine quiet ?_ threadId context present
      rw [Bool.eq_false_iff, ne_eq, anyHardwareArmed_iff] at unarmed ⊢
      rintro ⟨place, info, there, armed, enabled⟩
      refine unarmed ⟨place, info, ?_, armed, enabled⟩
      rw [Tables.getElem?_insert, if_neg]
      · exact there
      · rintro rfl
        exact absurd (there.symm.trans free) (Option.some_ne_none info)
  · rwa [same]

/-- A removed software entry is no armed one, and a removed hardware entry has every thread
programmed without it. -/
theorem quiet_removeBreakpoint (address : Nat) (quiet : Quiet own s) (writes : access.write = none)
    (programs : ∀ threadId, access.program threadId = true) :
    Quiet own (removeBreakpoint access address s).1 := by
  unfold removeBreakpoint
  split
  · exact quiet
  · split
    · exact quiet
    · rename_i entry present
      split
      · exact quiet_programmed programs _
      · rename_i software
        have erased (t : Pump) (table : t.breakpoints = s.breakpoints.erase address)
            (threads : t.threads = s.threads) : Quiet own t := by
          intro unarmed threadId context known
          refine quiet ?_ threadId context (threads ▸ known)
          rw [Bool.eq_false_iff, ne_eq, anyHardwareArmed_iff] at unarmed ⊢
          rintro ⟨place, info, there, hardware, enabled⟩
          refine unarmed ⟨place, info, ?_, hardware, enabled⟩
          rw [table, Tables.getElem?_erase, if_neg, there]
          rintro rfl
          obtain rfl := Option.some.inj (present.symm.trans there)
          exact software hardware
        dsimp only
        split
        · exact erased _ rfl rfl
        · rw [writeByte_ok address entry.originalByte writes]
          exact erased _ rfl rfl

/-- The loop of `disarmAll` writes nothing but the target's own bytes, and over every software
entry that nobody steps over. -/
theorem disarmEntries_memory {write : Nat → Option Failure} {entries : List (Nat × BreakpointInfo)}
    (writes : ∀ address, write address = none)
    (own : ∀ entry ∈ entries, isHardware entry.2.kind = false →
      entry.2.originalByte = original entry.1 ∧
        (steppingOver entry.1 s = true → s.memory entry.1 = original entry.1)) :
    let after := entries.foldl (disarmEntry access write) s
    (∀ place, after.memory place = s.memory place ∨ after.memory place = original place) ∧
      ∀ entry ∈ entries, isHardware entry.2.kind = false →
        after.memory entry.1 = original entry.1 := by
  induction entries generalizing s with
  | nil => exact ⟨fun _ => Or.inl rfl, fun _ inside => absurd inside List.not_mem_nil⟩
  | cons entry rest ih =>
      obtain ⟨address, info⟩ := entry
      rw [List.foldl_cons]
      have first : (disarmEntry access write s (address, info)).stepping = s.stepping ∧
          (∀ place, (disarmEntry access write s (address, info)).memory place = s.memory place ∨
            (disarmEntry access write s (address, info)).memory place = original place) ∧
          (isHardware info.kind = false →
            (disarmEntry access write s (address, info)).memory address = original address) := by
        have here := own (address, info) List.mem_cons_self
        cases kind : isHardware info.kind with
        | true =>
            have kept : disarmEntry access write s (address, info) = s := by
              simp only [disarmEntry, kind, ↓reduceIte]
            rw [kept]
            exact ⟨rfl, fun _ => Or.inl rfl, nofun⟩
        | false =>
            obtain ⟨byte, stands⟩ := here kind
            cases stepped : steppingOver address s with
            | true =>
                have kept : disarmEntry access write s (address, info) =
                    { s with disarmed := s.disarmed.insert address } := by
                  simp only [disarmEntry, kind, stepped, Bool.false_eq_true, ↓reduceIte]
                rw [kept]
                exact ⟨rfl, fun _ => Or.inl rfl, fun _ => stands stepped⟩
            | false =>
                have restored : (disarmEntry access write s (address, info)).memory =
                    fun place => if place = address then info.originalByte else s.memory place := by
                  simp only [disarmEntry, kind, stepped, Bool.false_eq_true, ↓reduceIte, writeByte,
                    writes]
                have same : (disarmEntry access write s (address, info)).stepping = s.stepping := by
                  simp only [disarmEntry, kind, stepped, Bool.false_eq_true, ↓reduceIte, writeByte,
                    writes]
                rw [restored]
                refine ⟨same, fun place => ?_, fun _ => (if_pos rfl).trans byte⟩
                by_cases here : place = address
                · exact Or.inr ((if_pos here).trans (here ▸ byte))
                · exact Or.inl (if_neg here)
      obtain ⟨stepping, moves, home⟩ := first
      obtain ⟨toward, restored⟩ := ih fun entry inRest software => by
        obtain ⟨byte, stands⟩ := own entry (List.mem_cons_of_mem _ inRest) software
        refine ⟨byte, fun stepped => ?_⟩
        rw [steppingOver, stepping] at stepped
        rcases moves entry.1 with same | back
        · rw [same, stands stepped]
        · exact back
      refine ⟨fun place => ?_, fun entry inside software => ?_⟩
      · rcases toward place with same | back
        · rw [same]
          exact moves place
        · exact Or.inr back
      · rcases List.mem_cons.mp inside with rfl | inRest
        · rcases toward address with same | back
          · rw [same]
            exact home software
          · exact back
        · exact restored entry inRest software

theorem disarmEntry_threads (write : Nat → Option Failure) (entry : Nat × BreakpointInfo)
    (s : Pump) : (disarmEntry access write s entry).threads = s.threads := by
  unfold disarmEntry
  split
  rename_i address info
  split
  · rfl
  · cases steppingOver address s with
    | true => rfl
    | false => cases write address <;> rfl

theorem disarmEntries_threads (write : Nat → Option Failure) (entries : List (Nat × BreakpointInfo))
    (s : Pump) : (entries.foldl (disarmEntry access write) s).threads = s.threads := by
  induction entries generalizing s with
  | nil => rfl
  | cons entry rest ih => rw [List.foldl_cons, ih, disarmEntry_threads]

/-- No trap stands where a thread is taken to be stepping over its original byte. -/
def Lifted (s : Pump) : Prop :=
  ∀ address, softwareAt address s = true → steppingOver address s = true →
    s.memory address ≠ int3

/-- After `disarmAll` the target holds its own bytes. -/
theorem disarmAll_memory {write : Nat → Option Failure} (sound : (ledger s).Sound original)
    (writes : ∀ address, write address = none) (lifted : Lifted s) :
    (disarmAll access write s).memory = original := by
  have memory : (disarmAll access write s).memory =
      (s.breakpoints.toList.foldl (disarmEntry access write) s).memory := by
    unfold disarmAll
    cases anyHardwareArmed s <;> rfl
  have borrowed : ∀ entry ∈ s.breakpoints.toList, isHardware entry.2.kind = false →
      entry.2.originalByte = original entry.1 ∧
        (steppingOver entry.1 s = true → s.memory entry.1 = original entry.1) := by
    intro entry inside software
    have present := TreeMap.mem_toList_iff_getElem?_eq_some.mp inside
    have lent := @lent_of_software s.breakpoints s.memory entry.1 entry.2 present software
    refine ⟨(sound.own _ _ lent).1, fun stepped => ?_⟩
    have noTrap := lifted entry.1 (by simp only [softwareAt, present, software, Bool.not_false])
      stepped
    have out : (ledger s).lent entry.1 ≠ none := by
      rw [show (ledger s).lent entry.1 = some entry.2.originalByte from lent]
      exact Option.some_ne_none _
    exact (sound.standing entry.1 out).resolve_left noTrap
  obtain ⟨toward, restored⟩ := @disarmEntries_memory _ _ access _ _ writes borrowed
  rw [memory]
  funext place
  by_cases software : softwareAt place s = true
  · unfold softwareAt at software
    split at software
    · contradiction
    · rename_i info present
      exact restored (place, info) (TreeMap.mem_toList_iff_getElem?_eq_some.mpr present)
        (by simpa using software)
  · rcases toward place with same | back
    · rw [same]
      exact home_of_sound sound place (by simpa using software)
    · exact back

theorem disarmAll_table (write : Nat → Option Failure) (s : Pump) :
    (disarmAll access write s).breakpoints = ∅ := by
  unfold disarmAll
  cases anyHardwareArmed s <;> rfl

/-- The debug registers are handed back. -/
theorem quiet_disarmAll (write : Nat → Option Failure) (quiet : Quiet own s)
    (programs : ∀ threadId, access.program threadId = true) :
    Quiet own (disarmAll access write s) := by
  unfold disarmAll
  cases armed : anyHardwareArmed s with
  | true => exact quiet_programmed programs _
  | false =>
      intro _ threadId context present
      refine quiet armed threadId context ?_
      rw [← @disarmEntries_threads access write s.breakpoints.toList s]
      exact present

/-- The writes into the target succeed, its threads' contexts included. -/
def Writes : Move → Prop
  | .pump event =>
      event.access.write = none ∧ event.access.setContext = true ∧
        ∀ threadId, event.access.program threadId = true
  | .disarm access write =>
      (∀ address, write address = none) ∧ ∀ threadId, access.program threadId = true
  | _ => True

/-- No breakpoint is added once the pump is disarmed, and the debug events and removals before
that are careful ones. -/
def Orderly (s : Session) : Move → Prop
  | .pump event =>
      Careful s.pump event ∧
        match event with
        | .addBreakpoint address _ kind length access =>
            s.phase = .draining ∨ s.phase = .lettingGo → ¬ Addable access address kind length s.pump
        | _ => True
  | .disarm .. => s.phase = .leaving → s.targetExited = false → Lifted s.pump
  | _ => True

/-- With an empty table nothing is on loan. -/
theorem sound_of_empty (empty : ∀ address : Nat, s.breakpoints[address]? = none)
    (memory : s.memory = original) : (ledger s).Sound original := by
  have unlent (address : Nat) : (ledger s).lent address = none := by
    rw [lent_eq_none_iff, softwareAt, empty]
  refine ⟨fun address byte lent => ?_, fun address lent => absurd (unlent address) lent,
    fun address _ => congrFun memory address⟩
  exact absurd (lent.symm.trans (unlent address)) (Option.some_ne_none byte)

theorem memory_of_empty (empty : ∀ address : Nat, s.breakpoints[address]? = none)
    (sound : (ledger s).Sound original) : s.memory = original := by
  funext address
  refine home_of_sound sound address ?_
  rw [softwareAt, empty]

/-- Whether the table has been given up. -/
def Session.disarmed (s : Session) : Prop :=
  s.phase = .draining ∨ s.phase = .lettingGo ∨ s.phase = .detached ∨ s.phase = .cleared

/-- What holds of the pump in each phase. The target that is gone needs nothing undone. -/
structure Undoing (original : Nat → UInt8) (s : Session) : Prop where
  sound : s.targetExited = false → (ledger s.pump).Sound original
  quiet : s.targetExited = false → Quiet s.ownControl s.pump
  empty : s.disarmed → ∀ address : Nat, s.pump.breakpoints[address]? = none
  closed : s.phase = .detached ∨ s.phase = .cleared → s.pump.attached = false

/-- A debug event or a call, as long as it keeps the ledger sound and the threads quiet and
fills no table that has been given up. -/
theorem Undoing.withPump {s : Session} {pump : Pump} (undoing : Undoing original s)
    (sound : s.targetExited = false → (ledger pump).Sound original)
    (quiet : s.targetExited = false → Quiet s.ownControl pump)
    (empty : s.disarmed → ∀ address : Nat, pump.breakpoints[address]? = none)
    (attached : s.pump.attached = false → pump.attached = false) :
    Undoing original (s.withPump pump) :=
  ⟨sound, quiet, empty, fun phase => attached (undoing.closed phase)⟩

theorem undoing_add {s : Session} (undoing : Undoing original s) (address : Nat) (label : String)
    (kind : BreakpointKind) (length : Nat) (writes : access.write = none)
    (programs : ∀ threadId, access.program threadId = true)
    (orderly : s.phase = .draining ∨ s.phase = .lettingGo →
      ¬ Addable access address kind length s.pump) :
    Undoing original (s.withPump (addBreakpoint access address label kind length s.pump).1) := by
  have refused (closed : s.pump.attached = false ∨ ¬ Addable access address kind length s.pump) :
      (addBreakpoint access address label kind length s.pump).1 = s.pump := by
    rcases @addBreakpoint_cases s.pump access address label kind length writes with
      ⟨attached, addable, _⟩ | ⟨same, _⟩
    · rcases closed with detached | barred
      · exact absurd (attached.symm.trans detached) (by decide)
      · exact absurd addable barred
    · exact same
  refine undoing.withPump (fun here => sound_added address label kind length (undoing.sound here) writes)
    (fun here => quiet_addBreakpoint address label kind length (undoing.quiet here) writes programs)
    (fun disarmed => ?_) (fun detached => by rw [refused (Or.inl detached), detached])
  rw [refused]
  · exact undoing.empty disarmed
  · rcases disarmed with draining | lettingGo | detached | cleared
    · exact Or.inr (orderly (Or.inl draining))
    · exact Or.inr (orderly (Or.inr lettingGo))
    · exact Or.inl (undoing.closed (Or.inl detached))
    · exact Or.inl (undoing.closed (Or.inr cleared))

theorem undoing_remove {s : Session} (undoing : Undoing original s) (address : Nat)
    (writes : access.write = none) (programs : ∀ threadId, access.program threadId = true)
    (careful : Careful s.pump (.removeBreakpoint address access)) :
    Undoing original (s.withPump (removeBreakpoint access address s.pump).1) := by
  refine undoing.withPump (fun here => sound_removeBreakpoint address (undoing.sound here) writes careful)
    (fun here => quiet_removeBreakpoint address (undoing.quiet here) writes programs)
    (fun disarmed => ?_) (fun detached => by simp [removeBreakpoint, detached])
  have absent := undoing.empty disarmed address
  have refused : (removeBreakpoint access address s.pump).1 = s.pump := by
    unfold removeBreakpoint
    split
    · rfl
    · rw [absent]
  rw [refused]
  exact undoing.empty disarmed

theorem undoing_tame {s : Session} {pump : Pump} (undoing : Undoing original s)
    (sound : s.targetExited = false → (ledger pump).Sound original) (tame : Tame s.pump pump) :
    Undoing original (s.withPump pump) :=
  undoing.withPump sound (fun here => (undoing.quiet here).tame tame)
    (fun disarmed address => tame.fresh address (undoing.empty disarmed address))
    (fun detached => tame.attached.trans detached)

/-- A new thread whose registers nobody has programmed. -/
theorem quiet_newThread (threadId : Nat) (context : ThreadContext) (quiet : Quiet own s) :
    Quiet (fun thread => if thread = threadId then context.debugControl else own thread)
      { s with threads := s.threads.insert threadId context } := by
  intro unarmed thread shown present
  dsimp only at present ⊢
  rw [Tables.getElem?_insert] at present
  by_cases here : thread = threadId
  · rw [if_pos here] at present
    obtain rfl := Option.some.inj present
    exact Or.inr (if_pos here).symm
  · rw [if_neg here] at present ⊢
    exact quiet unarmed thread shown present

theorem quiet_handleThreadCreate (threadId : Nat) (context : ThreadContext) (quiet : Quiet own s) :
    Quiet (fun thread => if thread = threadId then context.debugControl else own thread)
      (handleThreadCreate access threadId context s) := by
  intro unarmed
  have same : anyHardwareArmed { s with threads := s.threads.insert threadId context } = false := by
    unfold handleThreadCreate at unarmed
    dsimp only at unarmed
    split at unarmed <;> exact unarmed
  simp only [handleThreadCreate, same, Bool.false_and, Bool.false_eq_true, ↓reduceIte]
  exact quiet_newThread threadId context quiet same

theorem handleThreadCreate_table (threadId : Nat) (context : ThreadContext) (s : Pump) :
    (handleThreadCreate access threadId context s).breakpoints = s.breakpoints ∧
      (handleThreadCreate access threadId context s).attached = s.attached := by
  unfold handleThreadCreate
  dsimp only
  split <;> exact ⟨rfl, rfl⟩

theorem undoing_pump {s : Session} {event : Event} (undoing : Undoing original s)
    (writes : Writes (.pump event)) (orderly : Orderly s (.pump event)) :
    Undoing original (s.stepPump event) := by
  obtain ⟨careful, late⟩ := orderly
  cases event with
  | addBreakpoint address label kind length access =>
      exact undoing_add undoing address label kind length writes.1 writes.2.2 late
  | removeBreakpoint address access =>
      exact undoing_remove undoing address writes.1 writes.2.2 careful
  | breakpoint address threadId cpu access =>
      simp only [Session.stepPump]
      split
      · have handled := undoing_tame undoing
          (fun here => sound_handleBreakpoint cpu address threadId (undoing.sound here) writes.1 careful)
          (tame_handleBreakpoint cpu address threadId writes.1 writes.2.1)
        exact ⟨handled.sound, handled.quiet, handled.empty, handled.closed⟩
      · exact undoing
  | singleStep threadId cpu access =>
      simp only [Session.stepPump]
      split
      · exact undoing_tame undoing
          (fun here => sound_singleStep cpu threadId (undoing.sound here) writes.1 careful)
          (tame_handleSingleStep cpu threadId writes.1)
      · exact undoing
  | threadExit threadId access =>
      simp only [Session.stepPump]
      split
      · exact undoing_tame undoing
          (fun here => sound_threadExit threadId (undoing.sound here) writes.1 careful)
          (tame_handleThreadExit threadId writes.1)
      · exact undoing
  | threadCreate threadId context access =>
      simp only [Session.stepPump]
      split
      · obtain ⟨table, attached⟩ := @handleThreadCreate_table access threadId context s.pump
        refine ⟨fun here => ?_, fun here => quiet_handleThreadCreate threadId context
          (undoing.quiet here), fun disarmed => ?_, fun closed => attached.trans (undoing.closed closed)⟩
        · rw [ledger_handleThreadCreate]
          exact undoing.sound here
        · rw [table]
          exact undoing.empty disarmed
      · exact ⟨undoing.sound, fun here => quiet_newThread threadId context (undoing.quiet here),
          undoing.empty, undoing.closed⟩

/-- One step of the pump's thread, or of a call, keeps everything on its way to be undone. -/
theorem undoing_step {s : Session} {move : Move} (undoing : Undoing original s)
    (writes : Writes move) (orderly : Orderly s move) : Undoing original (s.step move) := by
  cases move with
  | pump event => exact undoing_pump undoing writes orderly
  | leave =>
      simp only [Session.step]
      split
      · exact ⟨undoing.sound, undoing.quiet, by simp [Session.disarmed], by simp⟩
      · exact undoing
  | exitProcess =>
      simp only [Session.step]
      split
      · exact ⟨nofun, nofun, by simp [Session.disarmed], by simp⟩
      · split
        · rename_i draining
          exact ⟨nofun, nofun, fun _ => undoing.empty (Or.inl draining), by simp⟩
        · exact undoing
  | disarm access write =>
      simp only [Session.step]
      split
      · rename_i leaving
        refine ⟨fun here => ?_, fun here => quiet_disarmAll write (undoing.quiet here) writes.2,
          fun _ address => ?_, ?_⟩
        · refine sound_of_empty (fun address => ?_)
            (disarmAll_memory (undoing.sound here) writes.1 (orderly leaving here))
          rw [disarmAll_table, TreeMap.getElem?_emptyc]
        · rw [disarmAll_table, TreeMap.getElem?_emptyc]
        · cases s.targetExited <;> simp
      · exact undoing
  | drained =>
      simp only [Session.step]
      split
      · rename_i draining
        exact ⟨undoing.sound, undoing.quiet, fun _ => undoing.empty (Or.inl draining), by simp⟩
      · exact undoing
  | finish =>
      simp only [Session.step]
      split
      · rename_i lettingGo
        exact ⟨undoing.sound, undoing.quiet, fun _ => undoing.empty (Or.inr (Or.inl lettingGo)),
          fun _ => rfl⟩
      · exact undoing
  | clear =>
      simp only [Session.step]
      split
      · rename_i detached
        have empty := undoing.empty (Or.inr (Or.inr (Or.inl detached)))
        have memory (here : s.targetExited = false) := memory_of_empty empty (undoing.sound here)
        refine ⟨fun here => ?_, fun here unarmed => ?_, fun _ _ => TreeMap.getElem?_emptyc,
          fun _ => undoing.closed (Or.inl detached)⟩
        · exact sound_of_empty (fun _ => TreeMap.getElem?_emptyc) (memory here)
        · refine undoing.quiet here ?_
          rw [Bool.eq_false_iff, ne_eq, anyHardwareArmed_iff]
          rintro ⟨address, info, there, _⟩
          exact absurd (there.symm.trans (empty address)) (Option.some_ne_none info)
      · exact undoing

/-- A pump that has just attached to a target. -/
def Session.attachedTo (memory : Nat → UInt8) (wow64 : Bool) (threads : TreeMap Nat ThreadContext) :
    Session where
  pump := DebugPump.attachedTo memory wow64 threads
  ownControl := fun threadId => (threads[threadId]?.getD {}).debugControl

theorem undoing_attachedTo (memory : Nat → UInt8) (wow64 : Bool)
    (threads : TreeMap Nat ThreadContext) :
    Undoing memory (Session.attachedTo memory wow64 threads) := by
  refine ⟨fun _ => sound_attachedTo memory wow64 threads, fun _ _ threadId context present => ?_,
    by simp [Session.disarmed, Session.attachedTo], by simp [Session.attachedTo]⟩
  have known : threads[threadId]? = some context := present
  right
  simp only [Session.attachedTo, known, Option.getD_some]

/-- Whatever calls land between its steps, an orderly shutdown leaves the target as it was:
once `detach` has returned no int3 is left in it and no thread has a debug register
programmed, and no call that comes after the disarming has reported an added breakpoint. -/
theorem shutdown_undoes {wow64 : Bool} {threads : TreeMap Nat ThreadContext} {s : Session}
    (reached : Runs.Reached Session.step (fun s move => Writes move ∧ Orderly s move)
      (Session.attachedTo original wow64 threads) s) :
    (s.phase = .cleared → s.targetExited = false →
      s.pump.memory = original ∧
        ∀ (threadId : Nat) (context : ThreadContext), s.pump.threads[threadId]? = some context →
          context.debugControl = 0 ∨ context.debugControl = s.ownControl threadId) ∧
    ∀ address label kind length access,
      Writes (.pump (.addBreakpoint address label kind length access)) →
      Orderly s (.pump (.addBreakpoint address label kind length access)) →
      (addBreakpoint access address label kind length s.pump).2 = .ok () →
        s.phase = .looping ∨ s.phase = .leaving := by
  have undoing : Undoing original s :=
    reached.invariant (undoing_attachedTo original wow64 threads)
      fun _ _ undoing allowed => undoing_step undoing allowed.1 allowed.2
  refine ⟨fun cleared here => ?_, fun address label kind length access writes orderly ok => ?_⟩
  · have empty := undoing.empty (Or.inr (Or.inr (Or.inr cleared)))
    refine ⟨memory_of_empty empty (undoing.sound here), undoing.quiet here ?_⟩
    rw [Bool.eq_false_iff, ne_eq, anyHardwareArmed_iff]
    rintro ⟨address, info, there, _⟩
    exact absurd (there.symm.trans (empty address)) (Option.some_ne_none info)
  · rcases @addBreakpoint_cases s.pump access address label kind length writes.1 with
      ⟨attached, addable, _⟩ | ⟨_, refused⟩
    · have closed := undoing.closed
      have late := orderly.2
      cases phase : s.phase with
      | looping => exact Or.inl rfl
      | leaving => exact Or.inr rfl
      | draining => exact absurd addable (late (Or.inl phase))
      | lettingGo => exact absurd addable (late (Or.inr phase))
      | detached => exact absurd (attached.symm.trans (closed (Or.inl phase))) (by decide)
      | cleared => exact absurd (attached.symm.trans (closed (Or.inr phase))) (by decide)
    · exact absurd ok refused

def nopSession : Session := Session.attachedTo (fun _ => 0x90) false ∅

def addNop : Move := .pump (.addBreakpoint 0x401000 "" .software 1 {})

/-- The rest of a shutdown once the loop has been left. -/
def shutdown : List Move := [.disarm {} fun _ => none, .drained, .finish, .clear]

theorem orderly_shutdown_undoes :
    (Runs.run Session.step nopSession ([addNop, .leave] ++ shutdown)).phase = .cleared ∧
      (Runs.run Session.step nopSession [addNop]).pump.memory 0x401000 = int3 ∧
      (Runs.run Session.step nopSession ([addNop, .leave] ++ shutdown)).pump.memory =
        fun _ => 0x90 := by
  have follows : Runs.Follows Session.step (fun s move => Writes move ∧ Orderly s move) nopSession
      ([addNop, .leave] ++ shutdown) := by
    refine ⟨⟨⟨rfl, rfl, fun _ => rfl⟩, trivial, fun late => ?_⟩, ⟨trivial, trivial⟩,
      ⟨⟨fun _ => rfl, fun _ => rfl⟩, fun _ _ address _ stepped => ?_⟩, ⟨trivial, trivial⟩,
      ⟨trivial, trivial⟩, ⟨trivial, trivial⟩, trivial⟩
    · rcases late with phase | phase <;> cases phase
    · exact absurd stepped Bool.false_ne_true
  have undone := (shutdown_undoes follows.reached).1 (by decide) (by decide)
  exact ⟨by decide, by decide, undone.1⟩

/-- A breakpoint added while the queued events are flushed: the call reports success, and its
int3 is still in the target once `detach` has returned. -/
theorem lateAdd_leaves_int3 :
    Runs.Follows Session.step (fun _ move => Writes move) nopSession
        ([.leave, .disarm {} fun _ => none, addNop, .drained, .finish, .clear]) ∧
      (addBreakpoint {} 0x401000 "" .software 1
        (Runs.run Session.step nopSession [.leave, .disarm {} fun _ => none]).pump).2.isOk = true ∧
      (Runs.run Session.step nopSession
        [.leave, .disarm {} fun _ => none, addNop, .drained, .finish, .clear]).phase = .cleared ∧
      (Runs.run Session.step nopSession
        [.leave, .disarm {} fun _ => none, addNop, .drained, .finish, .clear]).pump.memory
          0x401000 = int3 := by
  refine ⟨⟨trivial, ⟨fun _ => rfl, fun _ => rfl⟩, ⟨rfl, rfl, fun _ => rfl⟩, trivial, trivial, trivial,
    trivial⟩, by decide, by decide, by decide⟩

end PointerLab.DebugPump
