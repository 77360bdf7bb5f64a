import PointerLab.DebugPumpSession
import PointerLab.DebugPumpTraps

set_option autoImplicit false

/- Whose trap a breakpoint exception is. A trap is raised by a thread that runs into an
int3, and delivered at some later moment; the pump answers it from its tables. -/
namespace PointerLab.DebugPump

open Domain Std

variable {s : Pump} {access : Access}

/-- Whether the table has an enabled entry at the address. -/
def listed (address : Nat) (s : Pump) : Bool :=
  match s.breakpoints[address]? with
  | none => false
  | some entry => entry.enabled

def hardwareAt (address : Nat) (s : Pump) : Bool :=
  match s.breakpoints[address]? with
  | none => false
  | some entry => isHardware entry.kind

/-- Whether the pump takes a trap at the address for its own. -/
def covered (address : Nat) (s : Pump) : Bool := listed address s || s.disarmed.contains address

/-- Whether an event takes an address out of the table without a trace in the disarmed set:
a re-arm that fails, or an entry that never had an int3. -/
def forgets (address : Nat) (s : Session) : Move → Bool
  | .pump (.removeBreakpoint place _) =>
      place == address && s.pump.attached && hardwareAt address s.pump &&
        !s.pump.disarmed.contains address
  | .pump (.singleStep threadId _ access) =>
      s.receiving && access.write.isSome && s.pump.stepping[threadId]? == some address &&
        listed address s.pump && !s.pump.disarmed.contains address
  | .pump (.threadExit threadId access) =>
      s.receiving && access.write.isSome && s.pump.stepping[threadId]? == some address &&
        !steppingOver address { s.pump with stepping := s.pump.stepping.erase threadId } &&
          listed address s.pump && !s.pump.disarmed.contains address
  | .disarm _ _ =>
      s.phase = .leaving && hardwareAt address s.pump && !s.pump.disarmed.contains address
  | _ => false

/-- A session, the int3 bytes that are the pump's, and the traps that are raised and not yet
delivered. -/
structure Traced where
  session : Session
  planted : Nat → Bool := fun _ => false
  inFlight : List (Nat × Nat) := []

inductive Happening
  /-- A thread of the target runs into what stands at the address. -/
  | execute (address threadId : Nat)
  | move (move : Move)

namespace Traced

/-- Whose the bytes are after the pump has written. -/
def replant (before after : Pump) (planted : Nat → Bool) : Nat → Bool := fun address =>
  if after.memory address = before.memory address then planted address
  else after.memory address == int3

def deliver (s : Session) (inFlight : List (Nat × Nat)) : Move → List (Nat × Nat)
  | .pump (.breakpoint address threadId _ _) =>
      if s.receiving then inFlight.erase (address, threadId) else inFlight
  | _ => inFlight

def step (t : Traced) : Happening → Traced
  | .execute address threadId =>
      if t.planted address && t.session.pump.memory address == int3 then
        { t with inFlight := (address, threadId) :: t.inFlight }
      else t
  | .move move =>
      { session := t.session.step move
        planted := replant t.session.pump (t.session.step move).pump t.planted
        inFlight := deliver t.session t.inFlight move }

/-- An int3 of the pump stands at the address, or a trap it raised is still in flight. -/
def Owed (t : Traced) (address : Nat) : Prop :=
  t.planted address = true ∨ ∃ threadId, (address, threadId) ∈ t.inFlight

/-- Whether exceptions are still to be continued by the pump. -/
def watching (s : Session) : Bool := s.receiving || (s.phase = .leaving && !s.targetExited)

/-- Every trap of the pump, raised or still to be raised, would be taken for its own. -/
def Recognised (t : Traced) : Prop :=
  watching t.session = true → ∀ address, t.Owed address → covered address t.session.pump = true

/-- Nothing is forgotten that is still owed. -/
def Guarded (t : Traced) : Happening → Prop
  | .execute _ _ => True
  | .move move =>
      watching t.session = true → ∀ address, t.Owed address → forgets address t.session move = false

end Traced

/-- The pump answers for exactly the addresses it covers. -/
theorem handled_eq_covered (cpu : Cpu) (address threadId : Nat) :
    (handleBreakpoint access cpu address threadId s).2.handled = covered address s := by
  have stale : (handleBreakpoint.stale access cpu address threadId s).2.handled =
      s.disarmed.contains address := by
    unfold handleBreakpoint.stale
    split
    · rename_i held
      exact held.symm
    · rename_i free
      exact (Bool.not_eq_true _ ▸ free).symm
  cases present : s.breakpoints[address]? with
  | none =>
      simp only [handleBreakpoint, covered, listed, present, Bool.false_or]
      exact stale
  | some entry =>
      cases enabled : entry.enabled with
      | false =>
          simp only [handleBreakpoint, covered, listed, present, enabled, Bool.not_false, ↓reduceIte,
            Bool.false_or]
          exact stale
      | true =>
          simp only [handleBreakpoint, covered, listed, present, enabled, Bool.not_true,
            Bool.false_eq_true, ↓reduceIte, Bool.true_or]
          split
          · rfl
          · split
            · rfl
            · split <;> rfl

theorem covered_iff (address : Nat) (s : Pump) :
    covered address s = true ↔
      (∃ entry, s.breakpoints[address]? = some entry ∧ entry.enabled = true) ∨
        s.disarmed.contains address = true := by
  rw [covered, listed, Bool.or_eq_true]
  cases present : s.breakpoints[address]? <;> simp

/-- What a step does to the addresses the pump answers for: it loses none but the lost ones,
and answers for every byte it changes. -/
structure Answers (lost : Nat → Bool) (s t : Pump) : Prop where
  keeps : ∀ address, covered address s = true → lost address = false → covered address t = true
  writes : ∀ address, t.memory address ≠ s.memory address → covered address t = true

/-- Nothing is lost. -/
def nothing : Nat → Bool := fun _ => false

theorem Answers.same {lost : Nat → Bool} {t : Pump} (table : t.breakpoints = s.breakpoints)
    (disarmed : t.disarmed = s.disarmed) (memory : t.memory = s.memory) : Answers lost s t := by
  refine ⟨fun address held _ => ?_, fun address changed => absurd (congrFun memory address) changed⟩
  rw [covered_iff] at held ⊢
  rwa [table, disarmed]

/-- Putting an entry in the place of one that is enabled alike. -/
theorem answers_insert {lost : Nat → Bool} {address : Nat} {info entry : BreakpointInfo} {t : Pump}
    (present : s.breakpoints[address]? = some entry) (enabled : info.enabled = entry.enabled)
    (table : t.breakpoints = s.breakpoints.insert address info) (disarmed : t.disarmed = s.disarmed)
    (memory : t.memory = s.memory) : Answers lost s t := by
  refine ⟨fun place held _ => ?_, fun place changed => absurd (congrFun memory place) changed⟩
  rw [covered_iff] at held ⊢
  rw [table, disarmed, Tables.getElem?_insert]
  rcases held with ⟨shown, there, on⟩ | held
  · by_cases here : place = address
    · subst here
      obtain rfl := Option.some.inj (present.symm.trans there)
      exact Or.inl ⟨info, if_pos rfl, enabled.trans on⟩
    · exact Or.inl ⟨shown, by rwa [if_neg here], on⟩
  · exact Or.inr held

theorem answers_rewindThread {lost : Nat → Bool} (cpu : Cpu) (address threadId : Nat) :
    Answers lost s (rewindThread access cpu address threadId s) := by
  unfold rewindThread
  split <;> exact .same rfl rfl rfl

/-- All that a re-arm can do. -/
theorem rearm_cases (access : Access) (address : Nat) (s : Pump) :
    rearm access address s = s ∨
      (listed address s = true ∧ access.write = none ∧ rearm access address s =
        { s with memory := fun place => if place = address then int3 else s.memory place }) ∨
      (listed address s = true ∧ access.write.isSome = true ∧ rearm access address s =
        { s with breakpoints := s.breakpoints.erase address }) := by
  cases present : s.breakpoints[address]? with
  | none => exact Or.inl (by simp only [rearm, present])
  | some entry =>
      cases enabled : entry.enabled with
      | false => exact Or.inl (by simp [rearm, present, enabled])
      | true =>
          have on : listed address s = true := by simp only [listed, present, enabled]
          cases write : access.write with
          | none =>
              refine Or.inr (Or.inl ⟨on, rfl, ?_⟩)
              simp [rearm, present, enabled, writeByte, write]
          | some failure =>
              refine Or.inr (Or.inr ⟨on, rfl, ?_⟩)
              simp [rearm, present, enabled, writeByte, write]

/-- A re-arm that fails loses its address, unless it is in the disarmed set. -/
theorem answers_rearm (access : Access) (address : Nat) (s : Pump) :
    Answers (fun place => access.write.isSome && (place == address) && listed address s &&
      !s.disarmed.contains address) s (rearm access address s) := by
  rcases rearm_cases access address s with same | ⟨on, _, armed⟩ | ⟨on, failed, erased⟩
  · rw [same]
    exact .same rfl rfl rfl
  · rw [armed]
    refine ⟨fun _ held _ => held, fun place changed => ?_⟩
    by_cases here : place = address
    · rw [here, covered, Bool.or_eq_true]
      exact Or.inl on
    · exact absurd (if_neg here) changed
  · rw [erased]
    refine ⟨fun place held kept => ?_, fun _ changed => absurd rfl changed⟩
    rw [covered_iff] at held ⊢
    rw [Tables.getElem?_erase]
    by_cases here : place = address
    · subst here
      simp only [failed, on, Bool.true_and, beq_self_eq_true, Bool.not_eq_false'] at kept
      exact Or.inr kept
    · rwa [if_neg here]

theorem answers_handleBreakpoint {lost : Nat → Bool} (cpu : Cpu) (address threadId : Nat) :
    Answers lost s (handleBreakpoint access cpu address threadId s).1 := by
  have stale : Answers lost s (handleBreakpoint.stale access cpu address threadId s).1 := by
    unfold handleBreakpoint.stale
    split
    · exact answers_rewindThread cpu address threadId
    · exact .same rfl rfl rfl
  unfold handleBreakpoint
  split
  · exact stale
  · rename_i entry present
    split
    · exact stale
    · split
      · exact .same rfl rfl rfl
      · rename_i enabled _
        have on : entry.enabled = true := by simpa using enabled
        cases write : access.write with
        | some failure =>
            simp only [writeByte, write]
            refine answers_insert present ?_ rfl rfl rfl
            rfl
        | none =>
            have changes (t : Pump)
                (memory : t.memory = fun place =>
                  if place = address then entry.originalByte else s.memory place)
                (here : covered address t = true)
                (elsewhere : ∀ place, place ≠ address → covered place s = true →
                  covered place t = true) : Answers lost s t := by
              refine ⟨fun place held _ => ?_, fun place changed => ?_⟩
              · by_cases same : place = address
                · exact same ▸ here
                · exact elsewhere place same held
              · by_cases same : place = address
                · exact same ▸ here
                · exact absurd ((congrFun memory place).trans (if_neg same)) changed
            simp only [writeByte, write]
            split
            · refine changes _ rfl ?_ fun place other held => ?_
              · rw [covered_iff, Tables.contains_insert]
                exact Or.inr (by simp)
              · rw [covered_iff] at held ⊢
                rw [Tables.contains_insert, Tables.getElem?_erase, if_neg other,
                  Tables.getElem?_insert, if_neg other]
                rcases held with there | held
                · exact Or.inl there
                · exact Or.inr (by simp [held])
            · refine changes _ rfl ?_ fun place other held => ?_
              · rw [covered_iff]
                exact Or.inl ⟨_, TreeMap.getElem?_insert_self, on⟩
              · rw [covered_iff] at held ⊢
                simp only [setContext]
                rwa [Tables.getElem?_insert, if_neg other, Tables.getElem?_insert, if_neg other]

theorem hardwareHit_tables (access : Access) (cpu : Cpu) (threadId : Nat) (s : Pump) :
    (handleHardwareHit access cpu threadId s).1.stepping = s.stepping ∧
      (handleHardwareHit access cpu threadId s).1.disarmed = s.disarmed ∧
      (handleHardwareHit access cpu threadId s).1.memory = s.memory ∧
      ∀ address, listed address (handleHardwareHit access cpu threadId s).1 = listed address s := by
  unfold handleHardwareHit
  split
  · exact ⟨rfl, rfl, rfl, fun _ => rfl⟩
  · dsimp only
    split
    · exact ⟨rfl, rfl, rfl, fun _ => rfl⟩
    · split
      · dsimp only
        split <;> exact ⟨rfl, rfl, rfl, fun _ => rfl⟩
      · rename_i place info found
        have present := firedEntry_present found
        dsimp only
        have replaced (address : Nat) (shown : BreakpointInfo) (enabled : shown.enabled = info.enabled) :
            listed address { s with breakpoints := s.breakpoints.insert place shown } =
              listed address s := by
          unfold listed
          dsimp only
          rw [Tables.getElem?_insert]
          by_cases here : address = place
          · simp only [here, ↓reduceIte, present, enabled]
          · rw [if_neg here]
        split
        · exact ⟨rfl, rfl, rfl, fun address => replaced address _ rfl⟩
        · exact ⟨rfl, rfl, rfl, fun address => replaced address _ rfl⟩

/-- A single step is a re-arm, once its hardware hit is accounted for. -/
theorem singleStep_cases (access : Access) (cpu : Cpu) (threadId : Nat) (s : Pump) :
    ∃ t : Pump, t.stepping = s.stepping ∧ t.disarmed = s.disarmed ∧ t.memory = s.memory ∧
      (∀ address, listed address t = listed address s) ∧
      (handleSingleStep access cpu threadId s).1 =
        match s.stepping[threadId]? with
        | none => t
        | some address => rearm access address { t with stepping := t.stepping.erase threadId } := by
  unfold handleSingleStep
  split
  rename_i after verdict snapshot taken
  have tables : after.stepping = s.stepping ∧ after.disarmed = s.disarmed ∧
      after.memory = s.memory ∧ ∀ address, listed address after = listed address s := by
    split at taken
    · have same : after = (handleHardwareHit access cpu threadId s).1 := by rw [taken]
      exact same ▸ hardwareHit_tables access cpu threadId s
    · have same : s = after := congrArg Prod.fst taken
      exact same ▸ ⟨rfl, rfl, rfl, fun _ => rfl⟩
  obtain ⟨stepping, disarmed, memory, entries⟩ := tables
  refine ⟨after, stepping, disarmed, memory, entries, ?_⟩
  unfold handleSoftwareStep
  rw [← stepping]
  cases after.stepping[threadId]? with
  | none => rfl
  | some address => rfl

/-- A new entry is enabled. -/
theorem answers_added {lost : Nat → Bool} {address : Nat} {info : BreakpointInfo} {t : Pump}
    (enabled : info.enabled = true) (table : t.breakpoints = s.breakpoints.insert address info)
    (disarmed : ∀ place, place ≠ address → t.disarmed.contains place = s.disarmed.contains place)
    (memory : ∀ place, place ≠ address → t.memory place = s.memory place) : Answers lost s t := by
  have here : covered address t = true := by
    rw [covered_iff, table]
    exact Or.inl ⟨info, TreeMap.getElem?_insert_self, enabled⟩
  refine ⟨fun place held _ => ?_, fun place changed => ?_⟩
  · by_cases same : place = address
    · exact same ▸ here
    · rw [covered_iff] at held ⊢
      rwa [table, disarmed place same, Tables.getElem?_insert, if_neg same]
  · by_cases same : place = address
    · exact same ▸ here
    · exact absurd (memory place same) changed

theorem answers_addBreakpoint {lost : Nat → Bool} (address : Nat) (label : String)
    (kind : BreakpointKind) (length : Nat) :
    Answers lost s (addBreakpoint access address label kind length s).1 := by
  unfold addBreakpoint
  split
  · exact .same rfl rfl rfl
  · split
    · exact .same rfl rfl rfl
    · split
      · unfold addHardwareBreakpoint
        generalize (if kind = .hardwareExecute then 1 else length) = width
        dsimp only
        split
        · exact .same rfl rfl rfl
        · split
          · exact .same rfl rfl rfl
          · split
            · exact .same rfl rfl rfl
            · refine answers_added ?_ rfl (fun _ _ => rfl) fun _ _ => rfl
              rfl
      · split
        · exact .same rfl rfl rfl
        · split
          · exact .same rfl rfl rfl
          · cases write : access.write with
            | some failure =>
                simp only [writeByte, write]
                exact .same rfl rfl rfl
            | none =>
                simp only [writeByte, write]
                refine answers_added ?_ rfl (fun place other => ?_) fun _ other => if_neg other
                · rfl
                · rw [Tables.contains_erase]
                  simp [other]

/-- A removal loses its address when it is a hardware entry. -/
theorem answers_removeBreakpoint (address : Nat) :
    Answers (fun place => address == place && s.attached && hardwareAt place s &&
      !s.disarmed.contains place) s (removeBreakpoint access address s).1 := by
  unfold removeBreakpoint
  by_cases attached : s.attached = true
  · simp only [attached, Bool.not_true, Bool.false_eq_true, ↓reduceIte, Bool.and_true]
    cases present : s.breakpoints[address]? with
    | none => exact .same rfl rfl rfl
    | some entry =>
        dsimp only
        by_cases hardware : isHardware entry.kind = true
        · rw [if_pos hardware]
          refine ⟨fun place held kept => ?_, fun _ changed => absurd rfl changed⟩
          rw [covered_iff] at held ⊢
          simp only [applyDebugRegistersToAllThreads]
          rw [Tables.getElem?_erase]
          by_cases same : place = address
          · subst same
            simp only [hardwareAt, present, hardware, beq_self_eq_true, Bool.true_and,
              Bool.not_eq_false'] at kept
            exact Or.inr kept
          · rwa [if_neg same]
        · rw [if_neg hardware]
          have moved (t : Pump) (table : t.breakpoints = s.breakpoints.erase address)
              (disarmed : t.disarmed = s.disarmed.insert address) (place : Nat)
              (held : place = address ∨ covered place s = true) : covered place t = true := by
            rw [covered_iff, table, disarmed, Tables.contains_insert]
            by_cases same : place = address
            · exact Or.inr (by simp [same])
            · have before := (covered_iff place s).mp (held.resolve_left same)
              rw [Tables.getElem?_erase, if_neg same]
              rcases before with there | held
              · exact Or.inl there
              · exact Or.inr (by simp [held])
          split
          · exact ⟨fun place held _ => moved _ rfl rfl place (Or.inr held),
              fun _ changed => absurd rfl changed⟩
          · cases write : access.write with
            | some failure =>
                simp only [writeByte, write]
                exact ⟨fun place held _ => moved _ rfl rfl place (Or.inr held),
                  fun _ changed => absurd rfl changed⟩
            | none =>
                simp only [writeByte, write]
                refine ⟨fun place held _ => moved _ rfl rfl place (Or.inr held),
                  fun place changed => moved _ rfl rfl place (Or.inl ?_)⟩
                exact Decidable.byContradiction fun other => changed (if_neg other)
  · simp only [attached, Bool.not_false, ↓reduceIte]
    exact .same rfl rfl rfl

theorem covered_congr {t : Pump} {address : Nat} (listed_ : listed address t = listed address s)
    (disarmed : t.disarmed = s.disarmed) : covered address t = covered address s := by
  rw [covered, covered, listed_, disarmed]

theorem answers_singleStep (cpu : Cpu) (threadId : Nat) :
    Answers (fun address => access.write.isSome && s.stepping[threadId]? == some address &&
        listed address s && !s.disarmed.contains address) s
      (handleSingleStep access cpu threadId s).1 := by
  obtain ⟨t, stepping, disarmed, memory, entries, result⟩ :=
    singleStep_cases access cpu threadId s
  have calm : Answers nothing s t := by
    refine ⟨fun address held _ => ?_, fun address changed => absurd (congrFun memory address) changed⟩
    rwa [covered_congr (entries address) disarmed]
  rw [result]
  cases there : s.stepping[threadId]? with
  | none =>
      refine ⟨fun address held _ => calm.keeps address held rfl, calm.writes⟩
  | some address =>
      have rearmed := answers_rearm access address { t with stepping := t.stepping.erase threadId }
      refine ⟨fun place held kept => ?_, fun place changed => ?_⟩
      · refine rearmed.keeps place (calm.keeps place held rfl) ?_
        have same : listed address { t with stepping := t.stepping.erase threadId } =
            listed address s := entries address
        by_cases here : place = address
        · subst here
          rw [same]
          simpa [disarmed] using kept
        · simp [here]
      · rw [← memory] at changed
        exact rearmed.writes place changed

theorem answers_threadExit (threadId : Nat) :
    Answers (fun address => access.write.isSome && s.stepping[threadId]? == some address &&
        !steppingOver address { s with stepping := s.stepping.erase threadId } &&
          listed address s && !s.disarmed.contains address) s
      (handleThreadExit access threadId s) := by
  unfold handleThreadExit
  cases there : s.stepping[threadId]? with
  | none => exact .same rfl rfl rfl
  | some address =>
      dsimp only
      cases others : steppingOver address { s with stepping := s.stepping.erase threadId } with
      | true => exact .same rfl rfl rfl
      | false =>
          have rearmed := answers_rearm access address { s with stepping := s.stepping.erase threadId }
          refine ⟨fun place held kept => rearmed.keeps place held ?_, rearmed.writes⟩
          by_cases here : place = address
          · subst here
            simpa [others, listed] using kept
          · simp [here]

/-- `disarmAll` moves every software entry to the disarmed set. -/
theorem disarmEntries_tables (write : Nat → Option Failure) (entries : List (Nat × BreakpointInfo))
    (s : Pump) :
    let after := entries.foldl (disarmEntry access write) s
    (∀ address, after.disarmed.contains address = (s.disarmed.contains address ||
      entries.any fun entry => entry.1 == address && !isHardware entry.2.kind)) ∧
      ∀ address, after.memory address ≠ s.memory address →
        entries.any (fun entry => entry.1 == address && !isHardware entry.2.kind) = true := by
  induction entries generalizing s with
  | nil => exact ⟨fun _ => (Bool.or_false _).symm, fun _ changed => absurd rfl changed⟩
  | cons entry rest ih =>
      obtain ⟨place, info⟩ := entry
      obtain ⟨disarmed, memory⟩ := ih (disarmEntry access write s (place, info))
      rw [List.foldl_cons]
      cases kind : isHardware info.kind with
      | true =>
          have kept : disarmEntry access write s (place, info) = s := by
            simp only [disarmEntry, kind, ↓reduceIte]
          rw [kept] at disarmed memory ⊢
          simp only [List.any_cons, kind, Bool.not_true, Bool.and_false, Bool.false_or]
          exact ⟨disarmed, memory⟩
      | false =>
          have inserted : (disarmEntry access write s (place, info)).disarmed =
              s.disarmed.insert place ∧ ∀ address, address ≠ place →
                (disarmEntry access write s (place, info)).memory address = s.memory address := by
            simp only [disarmEntry, kind, Bool.false_eq_true, ↓reduceIte]
            cases steppingOver place s with
            | true => exact ⟨rfl, fun _ _ => rfl⟩
            | false =>
                simp only [Bool.false_eq_true, ↓reduceIte, writeByte]
                cases write place with
                | some failure => exact ⟨rfl, fun _ _ => rfl⟩
                | none => exact ⟨rfl, fun _ other => if_neg other⟩
          refine ⟨fun address => ?_, fun address changed => ?_⟩
          · rw [disarmed, inserted.1, Tables.contains_insert, List.any_cons]
            by_cases here : address = place
            · simp [here, kind]
            · rw [beq_false_of_ne (Ne.symm here), decide_eq_false here]
              simp only [Bool.false_or, Bool.false_and]
          · rw [List.any_cons]
            by_cases here : address = place
            · simp [here, kind]
            · rw [← inserted.2 address here] at changed
              rw [memory address changed, Bool.or_true]

theorem disarmAll_tables (access : Access) (write : Nat → Option Failure) (s : Pump) :
    (∀ address, covered address (disarmAll access write s) =
      (s.disarmed.contains address || softwareAt address s)) ∧
      ∀ address, (disarmAll access write s).memory address ≠ s.memory address →
        softwareAt address s = true := by
  obtain ⟨disarmed, memory⟩ := @disarmEntries_tables access write s.breakpoints.toList s
  have software (address : Nat) :
      (s.breakpoints.toList.any fun entry => entry.1 == address && !isHardware entry.2.kind) =
        softwareAt address s := by
    rw [Bool.eq_iff_iff, List.any_eq_true, softwareAt]
    constructor
    · rintro ⟨entry, inside, here⟩
      rw [Bool.and_eq_true, beq_iff_eq] at here
      obtain ⟨rfl, kind⟩ := here
      rw [TreeMap.mem_toList_iff_getElem?_eq_some.mp inside]
      exact kind
    · intro holds
      split at holds
      · contradiction
      · rename_i info present
        exact ⟨(address, info), TreeMap.mem_toList_iff_getElem?_eq_some.mpr present,
          by simpa using holds⟩
  have result : (disarmAll access write s).disarmed =
      (s.breakpoints.toList.foldl (disarmEntry access write) s).disarmed ∧
      (disarmAll access write s).memory =
        (s.breakpoints.toList.foldl (disarmEntry access write) s).memory ∧
      (disarmAll access write s).breakpoints = ∅ := by
    unfold disarmAll
    cases anyHardwareArmed s <;> exact ⟨rfl, rfl, rfl⟩
  refine ⟨fun address => ?_, fun address changed => ?_⟩
  · rw [covered, listed, result.2.2, TreeMap.getElem?_emptyc, Bool.false_or, result.1, disarmed,
      software]
  · rw [result.2.1] at changed
    rw [← software]
    exact memory address changed

theorem answers_disarmAll (write : Nat → Option Failure) :
    Answers (fun address => hardwareAt address s && !s.disarmed.contains address) s
      (disarmAll access write s) := by
  obtain ⟨after, memory⟩ := disarmAll_tables access write s
  refine ⟨fun address held kept => ?_, fun address changed => ?_⟩
  · rw [after, Bool.or_eq_true]
    rw [Bool.and_eq_false_iff, Bool.not_eq_false'] at kept
    rcases kept with software | held
    · rcases (covered_iff address s).mp held with ⟨entry, present, _⟩ | held
      · simp only [hardwareAt, present] at software
        exact Or.inr (by simp only [softwareAt, present, software, Bool.not_false])
      · exact Or.inl held
    · exact Or.inl held
  · rw [after, memory address changed, Bool.or_true]

/-- A step of the session, as long as exceptions are still to be continued after it. -/
theorem answers_step {s : Session} {move : Move}
    (still : Traced.watching (s.step move) = true) :
    Answers (fun address => forgets address s move) s.pump (s.step move).pump := by
  cases move with
  | pump event =>
      cases event with
      | addBreakpoint address label kind length access =>
          exact answers_addBreakpoint address label kind length
      | removeBreakpoint address access => exact answers_removeBreakpoint address
      | breakpoint address threadId cpu access =>
          simp only [Session.step, Session.stepPump]
          split
          · exact answers_handleBreakpoint cpu address threadId
          · exact .same rfl rfl rfl
      | singleStep threadId cpu access =>
          simp only [Session.step, Session.stepPump, forgets]
          split
          · rename_i receiving
            simp only [receiving, Bool.true_and]
            exact answers_singleStep cpu threadId
          · exact .same rfl rfl rfl
      | threadExit threadId access =>
          simp only [Session.step, Session.stepPump, forgets]
          split
          · rename_i receiving
            simp only [receiving, Bool.true_and]
            exact answers_threadExit threadId
          · exact .same rfl rfl rfl
      | threadCreate threadId context access =>
          simp only [Session.step, Session.stepPump]
          split
          · unfold handleThreadCreate
            dsimp only
            split <;> exact .same rfl rfl rfl
          · exact .same rfl rfl rfl
  | leave =>
      simp only [Session.step]
      split <;> exact .same rfl rfl rfl
  | exitProcess =>
      simp only [Session.step] at still ⊢
      split
      · rename_i looping
        simp [looping, Traced.watching, Session.receiving] at still
      · split <;> exact .same rfl rfl rfl
  | disarm access write =>
      simp only [Session.step, forgets]
      split
      · rename_i leaving
        simp only [leaving, decide_true, Bool.true_and]
        exact answers_disarmAll write
      · exact .same rfl rfl rfl
  | drained =>
      simp only [Session.step]
      split <;> exact .same rfl rfl rfl
  | finish =>
      simp only [Session.step] at still ⊢
      split
      · rename_i lettingGo
        simp [lettingGo, Traced.watching, Session.receiving] at still
      · exact .same rfl rfl rfl
  | clear =>
      simp only [Session.step] at still ⊢
      split
      · rename_i detached
        simp [detached, Traced.watching, Session.receiving] at still
      · exact .same rfl rfl rfl

theorem rearm_failed {address : Nat} (on : listed address s = true)
    (failed : access.write.isSome = true) :
    rearm access address s = { s with breakpoints := s.breakpoints.erase address } := by
  obtain ⟨failure, write⟩ := Option.isSome_iff_exists.mp failed
  unfold listed at on
  split at on
  · contradiction
  · rename_i entry present
    simp [rearm, present, on, writeByte, write]

theorem uncovered_erased {address : Nat} {t : Pump} (table : t.breakpoints = s.breakpoints.erase address)
    (disarmed : t.disarmed = s.disarmed) (out : s.disarmed.contains address = false) :
    covered address t = false := by
  rw [Bool.eq_false_iff, ne_eq, covered_iff, table, disarmed, out, Tables.getElem?_erase, if_pos rfl]
  simp

/-- What a step forgets it does not answer for, and does not write to. -/
theorem forgets_uncovers {s : Session} {move : Move} {address : Nat}
    (watched : Traced.watching s = true) (forgot : forgets address s move = true) :
    Traced.watching (s.step move) = true ∧ covered address (s.step move).pump = false ∧
      (s.step move).pump.memory address = s.pump.memory address ∧
      ∀ inFlight, Traced.deliver s inFlight move = inFlight := by
  cases move with
  | pump event =>
      cases event with
      | removeBreakpoint place access =>
          simp only [forgets, Bool.and_eq_true, beq_iff_eq, Bool.not_eq_true'] at forgot
          obtain ⟨⟨⟨rfl, attached⟩, hardware⟩, out⟩ := forgot
          unfold hardwareAt at hardware
          split at hardware
          · contradiction
          · rename_i entry present
            have removed : (removeBreakpoint access place s.pump).1 =
                applyDebugRegistersToAllThreads access
                  { s.pump with breakpoints := s.pump.breakpoints.erase place } := by
              simp only [removeBreakpoint, attached, present, hardware, Bool.not_true,
                Bool.false_eq_true, ↓reduceIte]
            have stepped : s.step (.pump (.removeBreakpoint place access)) =
                s.withPump (removeBreakpoint access place s.pump).1 := rfl
            rw [stepped, removed]
            exact ⟨watched, uncovered_erased rfl rfl out, rfl, fun _ => rfl⟩
      | singleStep threadId cpu access =>
          simp only [forgets, Bool.and_eq_true, beq_iff_eq, Bool.not_eq_true'] at forgot
          obtain ⟨⟨⟨⟨receiving, failed⟩, stepping⟩, on⟩, out⟩ := forgot
          obtain ⟨t, _, disarmed, memory, entries, result⟩ :=
            singleStep_cases access cpu threadId s.pump
          rw [stepping] at result
          dsimp only at result
          rw [rearm_failed (entries address ▸ on) failed] at result
          simp only [Session.step, Session.stepPump, receiving, ↓reduceIte, result]
          exact ⟨watched, @uncovered_erased t address _ rfl rfl (disarmed ▸ out),
            congrFun memory address, fun _ => rfl⟩
      | threadExit threadId access =>
          simp only [forgets, Bool.and_eq_true, beq_iff_eq, Bool.not_eq_true'] at forgot
          obtain ⟨⟨⟨⟨⟨receiving, failed⟩, stepping⟩, alone⟩, on⟩, out⟩ := forgot
          have result : handleThreadExit access threadId s.pump =
              { s.pump with
                stepping := s.pump.stepping.erase threadId
                breakpoints := s.pump.breakpoints.erase address } := by
            simp only [handleThreadExit, stepping, alone, Bool.false_eq_true, ↓reduceIte]
            exact @rearm_failed { s.pump with stepping := s.pump.stepping.erase threadId } access
              address on failed
          simp only [Session.step, Session.stepPump, receiving, ↓reduceIte, result]
          exact ⟨watched, @uncovered_erased s.pump address _ rfl rfl out, rfl, fun _ => rfl⟩
      | addBreakpoint => exact absurd forgot Bool.false_ne_true
      | breakpoint => exact absurd forgot Bool.false_ne_true
      | threadCreate => exact absurd forgot Bool.false_ne_true
  | disarm access write =>
      simp only [forgets, Bool.and_eq_true, decide_eq_true_eq, Bool.not_eq_true'] at forgot
      obtain ⟨⟨leaving, hardware⟩, out⟩ := forgot
      have alive : s.targetExited = false := by
        simpa [Traced.watching, Session.receiving, leaving] using watched
      obtain ⟨after, memory⟩ := disarmAll_tables access write s.pump
      have noSoftware : softwareAt address s.pump = false := by
        unfold hardwareAt at hardware
        unfold softwareAt
        cases present : s.pump.breakpoints[address]? with
        | none => rfl
        | some entry =>
            rw [present] at hardware
            exact congrArg not hardware
      simp only [Session.step, leaving, ↓reduceIte, alive, Bool.false_eq_true]
      refine ⟨rfl, by rw [after, out, noSoftware, Bool.false_or], ?_, fun _ => rfl⟩
      exact Decidable.byContradiction fun changed =>
        Bool.false_ne_true (noSoftware.symm.trans (memory address changed))
  | leave => exact absurd forgot Bool.false_ne_true
  | exitProcess => exact absurd forgot Bool.false_ne_true
  | drained => exact absurd forgot Bool.false_ne_true
  | finish => exact absurd forgot Bool.false_ne_true
  | clear => exact absurd forgot Bool.false_ne_true

namespace Traced

theorem owed_before {t : Traced} {move : Move} {address : Nat}
    (owed : (t.step (.move move)).Owed address) :
    t.Owed address ∨ (t.session.step move).pump.memory address ≠ t.session.pump.memory address := by
  rcases owed with planted | ⟨threadId, inFlight⟩
  · simp only [step, replant] at planted
    split at planted
    · exact Or.inl (Or.inl planted)
    · rename_i changed
      exact Or.inr changed
  · refine Or.inl (Or.inr ⟨threadId, ?_⟩)
    simp only [step, deliver] at inFlight
    split at inFlight
    · split at inFlight
      · exact List.mem_of_mem_erase inFlight
      · exact inFlight
    · exact inFlight

theorem stepPump_phase (s : Session) (event : Event) :
    (s.stepPump event).phase = s.phase ∧ (s.stepPump event).targetExited = s.targetExited := by
  unfold Session.stepPump
  repeat' split
  all_goals exact ⟨rfl, rfl⟩

/-- Nobody comes back to continuing exceptions. -/
theorem watching_before {s : Session} {move : Move} (still : watching (s.step move) = true) :
    watching s = true := by
  cases move with
  | pump event =>
      obtain ⟨phase, exited⟩ := stepPump_phase s event
      rw [watching, Session.receiving, Session.step, phase, exited] at still
      exact still
  | leave =>
      simp only [Session.step] at still
      split at still
      · rename_i looping
        simp [watching, Session.receiving, looping]
      · exact still
  | exitProcess =>
      simp only [Session.step] at still
      split at still
      · simp [watching, Session.receiving] at still
      · split at still
        · simp [watching, Session.receiving] at still
        · exact still
  | disarm access write =>
      simp only [Session.step] at still
      split at still
      · rename_i leaving
        cases exited : s.targetExited with
        | true => simp [watching, Session.receiving, exited] at still
        | false => simp [watching, Session.receiving, leaving, exited]
      · exact still
  | drained =>
      simp only [Session.step] at still
      split at still
      · simp [watching, Session.receiving] at still
      · exact still
  | finish =>
      simp only [Session.step] at still
      split at still
      · simp [watching, Session.receiving] at still
      · exact still
  | clear =>
      simp only [Session.step] at still
      split at still
      · simp [watching, Session.receiving] at still
      · exact still

/-- A guarded step leaves no trap behind that the pump would not answer for. -/
theorem recognised_step {t : Traced} {happening : Happening} (recognised : t.Recognised)
    (guarded : t.Guarded happening) : (t.step happening).Recognised := by
  cases happening with
  | execute place threadId =>
      simp only [step]
      split
      · rename_i trap
        rw [Bool.and_eq_true] at trap
        intro watched address owed
        rcases owed with planted | ⟨thread, inFlight⟩
        · exact recognised watched address (Or.inl planted)
        · rcases List.mem_cons.mp inFlight with same | earlier
          · obtain ⟨rfl, rfl⟩ := Prod.mk.inj same
            exact recognised watched address (Or.inl trap.1)
          · exact recognised watched address (Or.inr ⟨thread, earlier⟩)
      · exact recognised
  | move move =>
      intro still address owed
      have watched : watching t.session = true := watching_before still
      have answers := answers_step still
      rcases owed_before owed with before | changed
      · exact answers.keeps address (recognised watched address before)
          (guarded watched address before)
      · exact answers.writes address changed

/-- A step that forgets what is owed leaves a trap behind that the pump would pass on. -/
theorem guarded_of_recognised {t : Traced} {happening : Happening}
    (recognised : (t.step happening).Recognised) : t.Guarded happening := by
  cases happening with
  | execute place threadId => trivial
  | move move =>
      intro watched address owed
      rw [Bool.eq_false_iff]
      intro forgot
      obtain ⟨still, uncovered, memory, undelivered⟩ := forgets_uncovers watched forgot
      have after : (t.step (.move move)).Owed address := by
        rcases owed with planted | ⟨threadId, inFlight⟩
        · left
          simp only [step, replant, memory, ↓reduceIte]
          exact planted
        · right
          simp only [step, undelivered]
          exact ⟨threadId, inFlight⟩
      exact Bool.false_ne_true (uncovered.symm.trans (recognised still address after))

def attachedTo (memory : Nat → UInt8) (wow64 : Bool) (threads : TreeMap Nat ThreadContext) :
    Traced where
  session := { pump := DebugPump.attachedTo memory wow64 threads }

/-- Over every run that forgets no address it still answers for, the pump continues each trap
of its own with `DBG_CONTINUE`, before and after the loader's breakpoint; and the first step
that forgets one leaves a trap it would pass on to the target. -/
theorem traps_recognised {memory : Nat → UInt8} {wow64 : Bool}
    {threads : TreeMap Nat ThreadContext} {t : Traced}
    (reached : Runs.Reached step Guarded (attachedTo memory wow64 threads) t) :
    t.Recognised ∧
      (∀ address threadId, (address, threadId) ∈ t.inFlight → t.session.receiving = true →
        ∀ access cpu,
          breakpointStatus (handleBreakpoint access cpu address threadId t.session.pump).2.handled
            t.session = .dbgContinue) ∧
      ∀ happening, (t.step happening).Recognised ↔ t.Guarded happening := by
  have recognised : t.Recognised := by
    refine reached.invariant ?_ fun _ _ recognised guarded => recognised_step recognised guarded
    rintro _ address (planted | ⟨threadId, inFlight⟩)
    · exact absurd planted Bool.false_ne_true
    · exact absurd inFlight List.not_mem_nil
  refine ⟨recognised, fun address threadId inFlight receiving access cpu => ?_, fun happening =>
    ⟨guarded_of_recognised, recognised_step recognised⟩⟩
  have watched : watching t.session = true := by rw [watching, receiving, Bool.true_or]
  have held := recognised watched address (Or.inr ⟨threadId, inFlight⟩)
  rw [breakpointStatus, handled_eq_covered, held, if_pos rfl]

end Traced

def refused : Access := { write := some { message := "Access is denied." } }

/-- The loader's breakpoint is swallowed; then two threads run into one int3, and the re-arm
after the first one's step fails. -/
def failedRearm : List Happening :=
  [.move (.pump (.breakpoint 0x7FFE0000 1 {} {})),
    .move (.pump (.addBreakpoint 0x401000 "" .software 1 {})),
    .execute 0x401000 1, .execute 0x401000 2,
    .move (.pump (.breakpoint 0x401000 1 {} {})), .move (.pump (.singleStep 1 {} refused))]

def tracedNops : Traced := Traced.attachedTo (fun _ => 0x90) false ∅

/-- The trap of the second thread is then passed on to the target. -/
theorem failedRearm_unrecognised :
    let t := Runs.run Traced.step tracedNops failedRearm
    t.session.phase = .looping ∧ t.session.sawInitialBreakpoint = true ∧
      t.inFlight = [(0x401000, 2)] ∧
      breakpointStatus (handleBreakpoint {} {} 0x401000 2 t.session.pump).2.handled t.session =
        .dbgExceptionNotHandled := by
  decide

/-- Up to the failed re-arm the run is guarded. -/
theorem secondTrap_recognised :
    let t := Runs.run Traced.step tracedNops (failedRearm.take 5)
    (0x401000, 2) ∈ t.inFlight ∧
      breakpointStatus (handleBreakpoint {} {} 0x401000 2 t.session.pump).2.handled t.session =
        .dbgContinue := by
  have follows : Runs.Follows Traced.step Traced.Guarded tracedNops (failedRearm.take 5) :=
    ⟨fun _ _ _ => rfl, fun _ _ _ => rfl, trivial, trivial, fun _ _ _ => rfl, trivial⟩
  have inFlight : (0x401000, 2) ∈ (Runs.run Traced.step tracedNops (failedRearm.take 5)).inFlight := by
    decide
  exact ⟨inFlight, (Traced.traps_recognised follows.reached).2.1 0x401000 2 inFlight (by decide) {} {}⟩

end PointerLab.DebugPump
