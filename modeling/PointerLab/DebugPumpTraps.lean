import PointerLab.DebugPumpLedger

set_option autoImplicit false

/- Whose byte stands where, over every order of user calls and debug events. -/
namespace PointerLab.DebugPump

open Domain Std

variable {original : Nat → UInt8} {s : Pump} {access : Access}

theorem readByte_ok (address : Nat) (reads : access.read = none) :
    readByte access address s = .ok (s.memory address) := by
  simp only [readByte, reads]

theorem writeByte_ok (address : Nat) (value : UInt8) (writes : access.write = none) :
    writeByte access address value s =
      .ok { s with memory := fun place => if place = address then value else s.memory place } := by
  simp only [writeByte, writes]

@[simp] theorem ledger_rewindThread (cpu : Cpu) (address threadId : Nat) :
    ledger (rewindThread access cpu address threadId s) = ledger s := by
  unfold rewindThread
  split <;> rfl

@[simp] theorem ledger_applyDebugRegisters :
    ledger (applyDebugRegistersToAllThreads access s) = ledger s := rfl

@[simp] theorem ledger_handleThreadCreate (threadId : Nat) (context : ThreadContext) :
    ledger (handleThreadCreate access threadId context s) = ledger s := by
  unfold handleThreadCreate
  dsimp only
  split <;> rfl

/-- Whether an event that writes `byte` for the enabled entry at the address writes
over the target's own code: a hardware entry has no byte on loan there. -/
def overwrites (byte : BreakpointInfo → UInt8) (address : Nat) (s : Pump) : Bool :=
  match s.breakpoints[address]? with
  | none => false
  | some entry =>
      isHardware entry.kind && entry.enabled && s.memory address != byte entry

/-- What an event writes for an enabled entry is the trap or the byte on loan, or it
changes nothing. -/
theorem sound_entryWrite {address : Nat} {entry : BreakpointInfo} {byte : BreakpointInfo → UInt8}
    (sound : (ledger s).Sound original) (present : s.breakpoints[address]? = some entry)
    (enabled : entry.enabled = true) (harmless : overwrites byte address s = false)
    (either : byte entry = int3 ∨ byte entry = entry.originalByte) :
    ((ledger s).write address (byte entry)).Sound original := by
  cases hardware : isHardware entry.kind with
  | false => exact sound.write (lent_of_software present hardware) either
  | true =>
      have same : s.memory address = byte entry := by
        simpa [overwrites, present, hardware, enabled] using harmless
      have unchanged := Ledger.write_same (ledger s) address
      rwa [← same, show s.memory address = (ledger s).memory address from rfl, unchanged]

/-- The byte a trap gives back is the target's own. -/
theorem originalByte_own {address : Nat} {entry : BreakpointInfo}
    (sound : (ledger s).Sound original) (present : s.breakpoints[address]? = some entry)
    (enabled : entry.enabled = true) (harmless : overwrites (·.originalByte) address s = false) :
    entry.originalByte = original address := by
  cases hardware : isHardware entry.kind with
  | false => exact (sound.own address _ (lent_of_software present hardware)).1
  | true =>
      have same : s.memory address = entry.originalByte := by
        simpa [overwrites, present, hardware, enabled] using harmless
      rw [← same]
      apply sound.elsewhere address
      rw [lent_eq_none_iff]
      simp only [softwareAt, present, hardware, Bool.not_true]

theorem sound_rearm (address : Nat) (sound : (ledger s).Sound original)
    (writes : access.write = none) (harmless : overwrites (fun _ => int3) address s = false) :
    (ledger (rearm access address s)).Sound original := by
  unfold rearm
  split
  · exact sound
  · rename_i entry present
    split
    · exact sound
    · rename_i enabled
      rw [writeByte_ok address int3 writes]
      exact sound_entryWrite sound present (by simpa using enabled) harmless (Or.inl rfl)

theorem firedEntry_present {fired : BitVec 64} {address : Nat} {info : BreakpointInfo}
    (found : firedEntry fired s = some (address, info)) : s.breakpoints[address]? = some info :=
  TreeMap.mem_toList_iff_getElem?_eq_some.mp (List.mem_of_find?_eq_some found)

theorem ledger_hardwareHit (cpu : Cpu) (threadId : Nat) :
    ledger (handleHardwareHit access cpu threadId s).1 = ledger s := by
  unfold handleHardwareHit
  split
  · rfl
  · dsimp only
    split
    · rfl
    · split
      · split <;> rfl
      · rename_i address info found
        have present := firedEntry_present found
        dsimp only
        split
        · exact ledgerOf_replace present (by rfl)
        · exact ledgerOf_replace present (by rfl)

theorem overwrites_replace {address : Nat} {entry info : BreakpointInfo}
    {byte : BreakpointInfo → UInt8} (present : s.breakpoints[address]? = some entry)
    (kind : info.kind = entry.kind) (enabled : info.enabled = entry.enabled)
    (writes : byte info = byte entry) (place : Nat) :
    overwrites byte place { s with breakpoints := s.breakpoints.insert address info } =
      overwrites byte place s := by
  unfold overwrites
  dsimp only
  rw [Tables.getElem?_insert]
  by_cases here : place = address
  · subst here
    simp only [↓reduceIte, present, kind, enabled, writes]
  · simp only [here, ↓reduceIte]

/-- A hardware hit moves no stepping thread and keeps the kind of every entry. -/
theorem hardwareHit_frame (access : Access) (s : Pump) (cpu : Cpu) (threadId : Nat) :
    (handleHardwareHit access cpu threadId s).1.stepping = s.stepping ∧
      ∀ address, overwrites (fun _ => int3) address (handleHardwareHit access cpu threadId s).1 =
        overwrites (fun _ => int3) address s := by
  unfold handleHardwareHit
  split
  · exact ⟨rfl, fun _ => rfl⟩
  · dsimp only
    split
    · exact ⟨rfl, fun _ => rfl⟩
    · split
      · split <;> exact ⟨rfl, fun _ => rfl⟩
      · rename_i address info found
        have present := firedEntry_present found
        dsimp only
        split
        · exact ⟨rfl, fun place => overwrites_replace present (by rfl) (by rfl) (by rfl) place⟩
        · exact ⟨rfl, fun place => overwrites_replace present (by rfl) (by rfl) (by rfl) place⟩

theorem sound_softwareStep (threadId : Nat) (sound : (ledger s).Sound original)
    (writes : access.write = none)
    (harmless : ∀ address, s.stepping[threadId]? = some address →
      overwrites (fun _ => int3) address s = false) :
    (ledger (handleSoftwareStep access threadId s).1).Sound original := by
  unfold handleSoftwareStep
  split
  · exact sound
  · rename_i address stepping
    exact sound_rearm address sound writes (harmless address stepping)

/-- A single step is a software step once its hardware hit is accounted for. -/
theorem singleStep_eq (access : Access) (s : Pump) (cpu : Cpu) (threadId : Nat) :
    ∃ t : Pump, (handleSingleStep access cpu threadId s).1 =
        (handleSoftwareStep access threadId t).1 ∧
      ledger t = ledger s ∧ t.stepping = s.stepping ∧
      ∀ address, overwrites (fun _ => int3) address t = overwrites (fun _ => int3) address s := by
  have frame := hardwareHit_frame access s cpu threadId
  unfold handleSingleStep
  split
  rename_i after verdict snapshot taken
  refine ⟨after, rfl, ?_⟩
  split at taken
  · have same : after = (handleHardwareHit access cpu threadId s).1 := by rw [taken]
    exact same ▸ ⟨ledger_hardwareHit cpu threadId, frame⟩
  · have same : s = after := congrArg Prod.fst taken
    exact same ▸ ⟨rfl, rfl, fun _ => rfl⟩

theorem sound_singleStep (cpu : Cpu) (threadId : Nat) (sound : (ledger s).Sound original)
    (writes : access.write = none)
    (harmless : ∀ address, s.stepping[threadId]? = some address →
      overwrites (fun _ => int3) address s = false) :
    (ledger (handleSingleStep access cpu threadId s).1).Sound original := by
  obtain ⟨t, same, table, stepping, writesOver⟩ := singleStep_eq access s cpu threadId
  rw [same]
  apply sound_softwareStep threadId (table ▸ sound) writes
  intro address clash
  rw [writesOver]
  exact harmless address (stepping ▸ clash)

theorem sound_threadExit (threadId : Nat) (sound : (ledger s).Sound original)
    (writes : access.write = none)
    (harmless : ∀ address, s.stepping[threadId]? = some address →
      steppingOver address { s with stepping := s.stepping.erase threadId } = false →
        overwrites (fun _ => int3) address s = false) :
    (ledger (handleThreadExit access threadId s)).Sound original := by
  unfold handleThreadExit
  split
  · exact sound
  · rename_i address stepping
    dsimp only
    split
    · exact sound
    · rename_i alone
      exact sound_rearm address sound writes (harmless address stepping (by simpa using alone))

/-- A trap gives the original byte back; the entry goes if the thread cannot be rewound. -/
theorem sound_handleBreakpoint (cpu : Cpu) (address threadId : Nat)
    (sound : (ledger s).Sound original) (writes : access.write = none)
    (harmless : (access.openThread && access.getContext &&
      overwrites (·.originalByte) address s) = false) :
    (ledger (handleBreakpoint access cpu address threadId s).1).Sound original := by
  have staleSound : (ledger (handleBreakpoint.stale access cpu address threadId s).1).Sound
      original := by
    unfold handleBreakpoint.stale
    split
    · simpa only [ledger_rewindThread] using sound
    · exact sound
  unfold handleBreakpoint
  split
  · exact staleSound
  · rename_i entry present
    split
    · exact staleSound
    · split
      · exact sound
      · rename_i enabled opened
        have active : entry.enabled = true := by simpa using enabled
        have kept : overwrites (·.originalByte) address s = false := by
          rw [Bool.not_eq_true, Bool.not_eq_false'] at opened
          simpa only [opened, Bool.true_and] using harmless
        have own := originalByte_own sound present active kept
        have lifted := sound_entryWrite sound present active kept (Or.inr rfl)
        dsimp only
        generalize registers : { entry with lastHit := _ } = captured
        have same : lentBy captured = lentBy entry := by rw [← registers]; rfl
        rw [writeByte_ok address entry.originalByte writes]
        dsimp only
        split
        · have given : (((ledger s).write address entry.originalByte).drop address).Sound original :=
            lifted.drop (by simpa only [Ledger.write, ↓reduceIte] using own)
          show (ledgerOf ((s.breakpoints.insert address captured).erase address) _).Sound original
          rwa [ledgerOf_erase, ledgerOf_replace present same, ledgerOf_write]
        · have now : (s.breakpoints.insert address captured)[address]? = some captured :=
            TreeMap.getElem?_insert_self
          have counted : (ledgerOf ((s.breakpoints.insert address captured).insert address
              { captured with hitCount := bump captured.hitCount })
              fun place => if place = address then entry.originalByte else s.memory place).Sound
              original := by
            rwa [ledgerOf_replace now (by rfl), ledgerOf_replace present same, ledgerOf_write]
          rw [← registers] at counted ⊢
          exact counted

/-- A hardware breakpoint takes a free address and writes no byte of the target. -/
theorem ledger_addHardwareBreakpoint (address : Nat) (label : String) (kind : BreakpointKind)
    (length : Nat) (hardware : isHardware kind = true) (free : s.breakpoints[address]? = none) :
    ledger (addHardwareBreakpoint access address label kind length s).1 = ledger s := by
  unfold addHardwareBreakpoint
  generalize (if kind = .hardwareExecute then 1 else length) = width
  dsimp only
  split
  · rfl
  · split
    · rfl
    · split
      · rfl
      · rw [ledger_applyDebugRegisters]
        apply ledgerOf_insert_same
        simp only [ledgerOf, free, Option.bind_none, lentBy, hardware, ↓reduceIte]

theorem sound_addBreakpoint (address : Nat) (label : String) (kind : BreakpointKind)
    (length : Nat) (sound : (ledger s).Sound original) (reads : access.read = none)
    (writes : access.write = none) :
    (ledger (addBreakpoint access address label kind length s).1).Sound original := by
  unfold addBreakpoint
  split
  · exact sound
  · split
    · exact sound
    · rename_i absent
      have free : s.breakpoints[address]? = none :=
        TreeMap.getElem?_eq_none fun present => absent (TreeMap.contains_iff_mem.mpr present)
      by_cases hardware : isHardware kind = true
      · rw [if_pos hardware]
        rwa [ledger_addHardwareBreakpoint address label kind length hardware free]
      · rw [if_neg hardware, readByte_ok address reads, writeByte_ok address int3 writes]
        dsimp only
        by_cases trap : s.memory address = int3
        · rwa [if_pos trap]
        · rw [if_neg trap]
          have unlent : (ledger s).lent address = none := by
            simp only [ledger, ledgerOf, free, Option.bind_none]
          have lent : ((ledger s).lend address).lent address = some (s.memory address) :=
            if_pos rfl
          have armed := (sound.lend unlent trap).write lent (Or.inl rfl)
          show (ledgerOf (s.breakpoints.insert address _) _).Sound original
          rwa [ledgerOf_write, ledgerOf_lend (by rfl)]

/-- A removed software breakpoint leaves the ledger with the trap out of memory, unless
a thread is stepping over it and the trap is in place all the same. -/
theorem sound_removeBreakpoint (address : Nat) (sound : (ledger s).Sound original)
    (writes : access.write = none)
    (lifted : s.attached → softwareAt address s → steppingOver address s →
      s.memory address ≠ int3) :
    (ledger (removeBreakpoint access address s).1).Sound original := by
  unfold removeBreakpoint
  split
  · exact sound
  · rename_i detached
    have attached : s.attached := by simpa using detached
    split
    · exact sound
    · rename_i entry present
      by_cases hardware : isHardware entry.kind = true
      · rw [if_pos hardware]
        have unlent : (ledger s).lent address = none := by
          rw [lent_eq_none_iff]
          simp only [softwareAt, present, hardware, Bool.not_true]
        show (ledgerOf (s.breakpoints.erase address) s.memory).Sound original
        rw [ledgerOf_erase]
        exact (drop_of_free unlent).symm ▸ sound
      · rw [if_neg hardware]
        have software : isHardware entry.kind = false := by simpa using hardware
        have lent : (ledger s).lent address = some entry.originalByte :=
          lent_of_software present software
        dsimp only
        split
        · rename_i clash
          have noTrap := lifted attached (by simp only [softwareAt, present, software, Bool.not_false]) clash
          have present : (ledger s).lent address ≠ none := by simp only [lent, ne_eq,
            reduceCtorEq, not_false_eq_true]
          have home := (sound.standing address present).resolve_left noTrap
          show (ledgerOf (s.breakpoints.erase address) s.memory).Sound original
          rw [ledgerOf_erase]
          exact sound.drop home
        · rw [writeByte_ok address entry.originalByte writes]
          show (ledgerOf (s.breakpoints.erase address) _).Sound original
          rw [ledgerOf_erase, ledgerOf_write]
          exact sound.giveBack lent

/-- A pump that has just attached: no breakpoints, and the target as it is. -/
def attachedTo (memory : Nat → UInt8) (wow64 : Bool) (threads : TreeMap Nat ThreadContext) :
    Pump :=
  { memory, wow64, threads }

/-- The event's reads and writes of target memory succeed. -/
def Succeeds (event : Event) : Prop :=
  event.access.read = none ∧ event.access.write = none

/-- The byte a debug event is about to write for a hardware entry is the one that is
there, and no breakpoint is removed while a thread steps over it and its trap stands. -/
def Careful (s : Pump) : Event → Prop
  | .addBreakpoint .. => True
  | .removeBreakpoint address _ =>
      s.attached → softwareAt address s → steppingOver address s → s.memory address ≠ int3
  | .breakpoint address _ _ access =>
      (access.openThread && access.getContext && overwrites (·.originalByte) address s) = false
  | .singleStep threadId _ _ =>
      ∀ address ∈ s.stepping[threadId]?, overwrites (fun _ => int3) address s = false
  | .threadExit threadId _ =>
      ∀ address ∈ s.stepping[threadId]?,
        steppingOver address { s with stepping := s.stepping.erase threadId } = false →
          overwrites (fun _ => int3) address s = false
  | .threadCreate .. => True

instance (event : Event) : Decidable (Succeeds event) :=
  inferInstanceAs (Decidable (_ ∧ _))

instance (s : Pump) : (event : Event) → Decidable (Careful s event)
  | .addBreakpoint .. => isTrue trivial
  | .removeBreakpoint .. => inferInstanceAs (Decidable (_ → _ → _ → _))
  | .breakpoint .. => inferInstanceAs (Decidable (_ = _))
  | .singleStep .. => inferInstanceAs (Decidable (∀ _ ∈ _, _))
  | .threadExit .. => inferInstanceAs (Decidable (∀ _ ∈ _, _))
  | .threadCreate .. => isTrue trivial

/-- Every address without a software breakpoint holds the target's own byte. -/
def Home (original : Nat → UInt8) (s : Pump) : Prop :=
  ∀ address, softwareAt address s = false → s.memory address = original address

theorem home_of_sound (sound : (ledger s).Sound original) : Home original s :=
  fun address noSoftware => sound.elsewhere address ((lent_eq_none_iff address s).mpr noSoftware)

theorem sound_attachedTo (memory : Nat → UInt8) (wow64 : Bool)
    (threads : TreeMap Nat ThreadContext) :
    (ledger (attachedTo memory wow64 threads)).Sound memory := by
  have unlent : ∀ address, (ledger (attachedTo memory wow64 threads)).lent address = none :=
    fun address => (lent_eq_none_iff address _).mpr rfl
  refine ⟨?_, ?_, fun _ _ => rfl⟩
  · intro address byte lent
    exact absurd (lent.symm.trans (unlent address)) (Option.some_ne_none byte)
  · intro address lent
    exact absurd (unlent address) lent

/-- One careful step keeps every byte lent, standing or at home. -/
theorem sound_step {event : Event} (sound : (ledger s).Sound original)
    (succeeds : Succeeds event) (careful : Careful s event) :
    (ledger (step s event)).Sound original := by
  cases event with
  | addBreakpoint address label kind length access =>
      exact sound_addBreakpoint address label kind length sound succeeds.1 succeeds.2
  | removeBreakpoint address access =>
      exact sound_removeBreakpoint address sound succeeds.2 careful
  | breakpoint address threadId cpu access =>
      exact sound_handleBreakpoint cpu address threadId sound succeeds.2 careful
  | singleStep threadId cpu access =>
      exact sound_singleStep cpu threadId sound succeeds.2 careful
  | threadExit threadId access => exact sound_threadExit threadId sound succeeds.2 careful
  | threadCreate threadId context access =>
      show (ledger (handleThreadCreate access threadId context s)).Sound original
      rwa [ledger_handleThreadCreate]

theorem reached_sound {wow64 : Bool} {threads : TreeMap Nat ThreadContext}
    (reached : Runs.Reached step (fun s event => Succeeds event ∧ Careful s event)
      (attachedTo original wow64 threads) s) : (ledger s).Sound original :=
  reached.invariant (sound_attachedTo original wow64 threads)
    fun _ _ sound allowed => sound_step sound allowed.1 allowed.2

/-- An entry in the way of a write for it is a hardware one. -/
theorem overwrites_entry {byte : BreakpointInfo → UInt8} {address : Nat}
    (clash : overwrites byte address s = true) :
    ∃ entry, s.breakpoints[address]? = some entry ∧ isHardware entry.kind = true ∧
      entry.enabled = true ∧ s.memory address ≠ byte entry := by
  unfold overwrites at clash
  split at clash
  · contradiction
  · rename_i entry present
    exact ⟨entry, present, by simpa [and_assoc] using clash⟩

theorem rearm_overwrites {address : Nat} (writes : access.write = none)
    (clash : overwrites (fun _ => int3) address s = true) :
    softwareAt address (rearm access address s) = false ∧
      (rearm access address s).memory address = int3 := by
  obtain ⟨entry, present, hardware, enabled, _⟩ := overwrites_entry clash
  have result : rearm access address s =
      { s with memory := fun place => if place = address then int3 else s.memory place } := by
    simp only [rearm, present, enabled, Bool.not_true, Bool.false_eq_true, ↓reduceIte,
      writeByte_ok address int3 writes]
  rw [result]
  exact ⟨by simp only [softwareAt, present, hardware, Bool.not_true], if_pos rfl⟩

/-- Re-arming over a hardware entry takes a byte away that nothing gives back. -/
theorem rearm_not_home {address : Nat} (sound : (ledger s).Sound original)
    (writes : access.write = none) (home : Home original (rearm access address s)) :
    overwrites (fun _ => int3) address s = false := by
  cases clash : overwrites (fun _ => int3) address s with
  | false => rfl
  | true =>
      obtain ⟨noSoftware, trap⟩ := rearm_overwrites writes clash
      obtain ⟨entry, present, hardware, _, other⟩ := overwrites_entry clash
      have before := home_of_sound sound address
        (by simp only [softwareAt, present, hardware, Bool.not_true])
      exact absurd (before.trans ((home address noSoftware).symm.trans trap)) other

theorem handleBreakpoint_overwrites (cpu : Cpu) (threadId : Nat) {address : Nat} {entry : BreakpointInfo}
    (writes : access.write = none) (present : s.breakpoints[address]? = some entry)
    (hardware : isHardware entry.kind = true) (enabled : entry.enabled = true)
    (opened : (access.openThread && access.getContext) = true) :
    softwareAt address (handleBreakpoint access cpu address threadId s).1 = false ∧
      (handleBreakpoint access cpu address threadId s).1.memory address = entry.originalByte := by
  unfold handleBreakpoint
  simp only [present, enabled, opened, writeByte_ok address entry.originalByte writes,
    Bool.not_true, Bool.false_eq_true, ↓reduceIte]
  split
  · exact ⟨by simp [softwareAt], if_pos rfl⟩
  · exact ⟨by simp [softwareAt, hardware], if_pos rfl⟩

/-- Where the ledger was sound, a step that is not careful leaves a byte away from home. -/
theorem careful_of_home {event : Event} (sound : (ledger s).Sound original)
    (succeeds : Succeeds event) (home : Home original (step s event)) : Careful s event := by
  cases event with
  | addBreakpoint address label kind length access => trivial
  | removeBreakpoint address access =>
      intro attached software clash trap
      cases present : s.breakpoints[address]? with
      | none => simp [softwareAt, present] at software
      | some entry =>
          have borrowed : isHardware entry.kind = false := by
            simpa [softwareAt, present] using software
          have result : (step s (.removeBreakpoint address access)).memory = s.memory ∧
              softwareAt address (step s (.removeBreakpoint address access)) = false := by
            simp [step, removeBreakpoint, attached, present, borrowed, clash, softwareAt]
          have own := sound.own address _ (lent_of_software present borrowed)
          have after := home address result.2
          rw [result.1, trap, ← own.1] at after
          exact own.2 after.symm
  | breakpoint address threadId cpu access =>
      cases opened : access.openThread && access.getContext with
      | false => simp only [Careful, opened, Bool.false_and]
      | true =>
          rw [Careful, opened, Bool.true_and]
          cases clash : overwrites (·.originalByte) address s with
          | false => rfl
          | true =>
              obtain ⟨entry, present, hardware, enabled, other⟩ := overwrites_entry clash
              obtain ⟨noSoftware, written⟩ := handleBreakpoint_overwrites cpu threadId
                succeeds.2 present hardware enabled opened
              have before := home_of_sound sound address
                (by simp only [softwareAt, present, hardware, Bool.not_true])
              exact absurd (before.trans ((home address noSoftware).symm.trans written)) other
  | singleStep threadId cpu access =>
      obtain ⟨t, same, table, stepping, writesOver⟩ := singleStep_eq access s cpu threadId
      intro address clash
      have present : t.stepping[threadId]? = some address := stepping ▸ clash
      have stepped : (step s (.singleStep threadId cpu access)) =
          rearm access address { t with stepping := t.stepping.erase threadId } := by
        simp only [step, same, handleSoftwareStep, present]
      have kept := rearm_not_home (s := { t with stepping := t.stepping.erase threadId })
        (show (ledger t).Sound original from table ▸ sound) succeeds.2 (stepped ▸ home)
      exact (writesOver address).symm.trans kept
  | threadExit threadId access =>
      intro address clash alone
      have present : s.stepping[threadId]? = some address := clash
      have stepped : (step s (.threadExit threadId access)) =
          rearm access address { s with stepping := s.stepping.erase threadId } := by
        simp only [step, handleThreadExit, present, alone, Bool.false_eq_true, ↓reduceIte]
      exact rearm_not_home (s := { s with stepping := s.stepping.erase threadId }) sound succeeds.2
        (stepped ▸ home)
  | threadCreate threadId context access => trivial

theorem removeBreakpoint_ok {address : Nat} (writes : access.write = none)
    (software : softwareAt address s)
    (removed : (removeBreakpoint access address s).2 = .ok ()) :
    softwareAt address (removeBreakpoint access address s).1 = false := by
  cases attached : s.attached with
  | false => simp [removeBreakpoint, attached, fail] at removed
  | true =>
      cases present : s.breakpoints[address]? with
      | none => simp [softwareAt, present] at software
      | some entry =>
          have borrowed : isHardware entry.kind = false := by
            simpa [softwareAt, present] using software
          simp only [removeBreakpoint, attached, present, borrowed, Bool.not_true,
            Bool.false_eq_true, ↓reduceIte, writeByte_ok address entry.originalByte writes]
          cases steppingOver address s <;> simp [softwareAt]

/-- Over every careful run the bytes that are not on loan are home, a removal that
reports success takes the int3 with it, and the first step that is not careful is the
first to leave a byte away from home. -/
theorem home_iff_careful {wow64 : Bool} {threads : TreeMap Nat ThreadContext}
    (reached : Runs.Reached step (fun s event => Succeeds event ∧ Careful s event)
      (attachedTo original wow64 threads) s) :
    Home original s ∧
      (∀ address access, access.write = none →
        Careful s (.removeBreakpoint address access) → softwareAt address s →
        (removeBreakpoint access address s).2 = .ok () →
          (removeBreakpoint access address s).1.memory address = original address ∧
            original address ≠ int3) ∧
      ∀ event, Succeeds event → (Home original (step s event) ↔ Careful s event) := by
  have sound := reached_sound reached
  refine ⟨home_of_sound sound, ?_, fun event succeeds => ⟨?_, ?_⟩⟩
  · intro address access writes careful software removed
    have gone := removeBreakpoint_ok writes software removed
    have after := home_of_sound (sound_removeBreakpoint address sound writes careful)
    refine ⟨after address gone, ?_⟩
    cases lent : (ledger s).lent address with
    | none => simp [(lent_eq_none_iff address s).mp lent] at software
    | some byte =>
        have own := sound.own address byte lent
        exact own.1 ▸ own.2
  · exact careful_of_home sound succeeds
  · exact fun careful => home_of_sound (sound_step sound succeeds careful)

/-- Two threads hit one breakpoint; the first has stepped over it, the second has not,
when the user removes it. -/
def crossedSteps : List Event :=
  [.addBreakpoint 0x401000 "" .software 1 {}, .breakpoint 0x401000 1 {} {},
    .breakpoint 0x401000 2 {} {}, .singleStep 1 {} {}, .removeBreakpoint 0x401000 {}]

def nops : Pump := attachedTo (fun _ => 0x90) false ∅

/-- The removal reports success and leaves the int3 of the first re-arm behind. -/
theorem crossedSteps_leave_int3 :
    Runs.Follows step (fun _ event => Succeeds event) nops crossedSteps ∧
      (removeBreakpoint {} 0x401000 (Runs.run step nops (crossedSteps.take 4))).2.isOk = true ∧
      softwareAt 0x401000 (Runs.run step nops crossedSteps) = false ∧
      (Runs.run step nops crossedSteps).memory 0x401000 = int3 ∧
      ¬ Home (fun _ => 0x90) (Runs.run step nops crossedSteps) := by
  have trap : (Runs.run step nops crossedSteps).memory 0x401000 = int3 := by decide
  have gone : softwareAt 0x401000 (Runs.run step nops crossedSteps) = false := by decide
  refine ⟨by decide, by decide, gone, trap, ?_⟩
  intro home
  exact absurd ((home 0x401000 gone).symm.trans trap) (by decide)

/-- Both threads are done with their steps when the breakpoint is removed. -/
def finishedSteps : Pump :=
  Runs.run step nops (crossedSteps.take 4 ++ [.singleStep 2 {} {}])

theorem finishedSteps_home :
    (removeBreakpoint {} 0x401000 finishedSteps).1.memory 0x401000 = 0x90 ∧
      Home (fun _ => 0x90) (step finishedSteps (.removeBreakpoint 0x401000 {})) := by
  have follows : Runs.Follows step (fun s event => Succeeds event ∧ Careful s event) nops
      (crossedSteps.take 4 ++ [.singleStep 2 {} {}]) := by decide
  have safe := home_iff_careful follows.reached
  have removed := safe.2.1 0x401000 {} rfl (by decide) (by decide) rfl
  exact ⟨removed.1, (safe.2.2 (.removeBreakpoint 0x401000 {}) (by decide)).mpr (by decide)⟩

end PointerLab.DebugPump
