import PointerLab.DebugPumpRecognition

set_option autoImplicit false

/- Which hits of hardware breakpoints a single-step exception accounts for. -/
namespace PointerLab.DebugPump

open Domain Std

/-- The callback of `BreakpointService::attachDebugger` as far as the access watch goes: the
context it gets to record. -/
def hitCallback (watchedAddress : Nat) (info : BreakpointInfo) : Option RegisterContext :=
  if info.lastHit.captured && info.address == watchedAddress then some info.lastHit else none

section Specification

variable (access : Access) (cpu : Cpu) (threadId : Nat) (s : Pump)

/-- An enabled hardware breakpoint with the bit of its slot in DR6. -/
def Fired (info : BreakpointInfo) : Prop :=
  isHardware info.kind = true ∧ info.enabled = true ∧
    ∃ slot, info.slot = some slot ∧ cpu.debugStatus.getLsbD slot.val = true

/-- One more hit, with the registers the thread stopped with. -/
def counted (info : BreakpointInfo) : BreakpointInfo :=
  { info with
    lastHit := (contextOf threadId cpu s).capture s.wow64 threadId, hitCount := bump info.hitCount }

/-- A trap is accounted for: every breakpoint that fired has one more hit and no other entry is
touched, and the watch has been told of its own. -/
structure Accounted (watchedAddress : Nat) : Prop where
  fired : ∀ (address : Nat) info, s.breakpoints[address]? = some info → Fired cpu info →
    (handleSingleStep access cpu threadId s).1.breakpoints[address]? =
      some (counted cpu threadId s info)
  others : ∀ address : Nat, (∀ info, s.breakpoints[address]? = some info → ¬Fired cpu info) →
    (handleSingleStep access cpu threadId s).1.breakpoints[address]? = s.breakpoints[address]?
  watch : ∀ (address : Nat) info, s.breakpoints[address]? = some info → Fired cpu info →
    info.address = watchedAddress →
      (handleSingleStep access cpu threadId s).2.onHit.bind (hitCallback watchedAddress) =
        some ((contextOf threadId cpu s).capture s.wow64 threadId)

/-- At most one breakpoint has fired, the registers could be asked for it, and no breakpoint that
the thread has stepped over is lost to a failing write. -/
structure OneHit : Prop where
  single : ∀ (address : Nat) info (other : Nat) otherInfo,
    s.breakpoints[address]? = some info → Fired cpu info →
    s.breakpoints[other]? = some otherInfo → Fired cpu otherInfo → address = other
  asked : ∀ (address : Nat) info, s.breakpoints[address]? = some info → Fired cpu info →
    s.hardwareUsed = true ∧ access.openThread = true ∧ access.getContext = true
  rearmed : ∀ (address : Nat) info, s.stepping[threadId]? = some address →
    s.breakpoints[address]? = some info → info.enabled = true → access.write = none

end Specification

variable {access : Access} {cpu : Cpu} {threadId : Nat} {s : Pump}

/-- The mask of a slot picks its bit out of DR6. -/
theorem status_bit (status : BitVec 64) (slot : Fin 4) :
    (status &&& debugStatusMask &&& (1 <<< slot.val) != 0) = status.getLsbD slot.val := by
  have mask : ∀ slot : Fin 4, debugStatusMask &&& (1 <<< slot.val) = BitVec.twoPow 64 slot.val := by
    decide
  have nonzero : ∀ slot : Fin 4, (BitVec.twoPow 64 slot.val != 0) = true := by decide
  rw [BitVec.and_assoc, mask, BitVec.and_twoPow]
  split
  · rename_i set
    rw [set, nonzero]
  · rename_i clear
    rw [Bool.eq_false_iff.mpr clear]
    rfl

theorem fires_iff {info : BreakpointInfo} :
    (isHardware info.kind && info.enabled &&
      match info.slot with
      | none => false
      | some slot => cpu.debugStatus &&& debugStatusMask &&& (1 <<< slot.val) != 0) = true ↔
        Fired cpu info := by
  unfold Fired
  cases shape : info.slot with
  | none => simp
  | some slot =>
      simp only [status_bit, Bool.and_eq_true, Option.some.injEq, exists_eq_left', and_assoc]

theorem firedEntry_fired {address : Nat} {info : BreakpointInfo}
    (found : firedEntry (cpu.debugStatus &&& debugStatusMask) s = some (address, info)) :
    Fired cpu info := by
  have test := List.find?_some found
  exact fires_iff.mp test

theorem not_fired_of_none (none_ : firedEntry (cpu.debugStatus &&& debugStatusMask) s = none)
    {address : Nat} {info : BreakpointInfo} (present : s.breakpoints[address]? = some info) :
    ¬Fired cpu info := by
  intro fired
  have entry := TreeMap.mem_toList_iff_getElem?_eq_some.mpr present
  exact List.find?_eq_none.mp none_ _ entry (fires_iff.mpr fired)

/-- The entry that a single step counts a hit of: the first that has fired, where DR6 can be
read. -/
def hitEntry (access : Access) (cpu : Cpu) (s : Pump) : Option (Nat × BreakpointInfo) :=
  if s.hardwareUsed && access.openThread && access.getContext then
    firedEntry (cpu.debugStatus &&& debugStatusMask) s
  else none

/-- The table after the hit of an entry. -/
def afterHit (cpu : Cpu) (threadId : Nat) (s : Pump) :
    Option (Nat × BreakpointInfo) → TreeMap Nat BreakpointInfo
  | none => s.breakpoints
  | some (address, info) => s.breakpoints.insert address (counted cpu threadId s info)

theorem firedEntry_zero : firedEntry 0#64 s = none := by
  apply List.find?_eq_none.mpr
  intro entry _ fires
  simp only [Bool.and_eq_true] at fires
  cases slot : entry.2.slot with
  | none => simp [slot] at fires
  | some slot => simp [‹entry.2.slot = _›] at fires

theorem handleHardwareHit_spec (used : s.hardwareUsed = true) :
    (handleHardwareHit access cpu threadId s).1.breakpoints =
        afterHit cpu threadId s (hitEntry access cpu s) ∧
      (if (handleHardwareHit access cpu threadId s).2.1 = .hit then
        (handleHardwareHit access cpu threadId s).2.2 else none) =
          (hitEntry access cpu s).map fun entry => counted cpu threadId s entry.2 := by
  unfold handleHardwareHit hitEntry
  simp only [used, Bool.true_and]
  by_cases asked : (access.openThread && access.getContext) = true
  · have status : (contextOf threadId cpu s).debugStatus = cpu.debugStatus := rfl
    simp only [asked, Bool.not_true, Bool.false_eq_true, ↓reduceIte, status]
    by_cases zero : (cpu.debugStatus &&& debugStatusMask) = 0
    · simp [zero, firedEntry_zero, afterHit]
    · simp only [beq_iff_eq, zero, ↓reduceIte]
      cases found : firedEntry (cpu.debugStatus &&& debugStatusMask) s with
      | none =>
          refine ⟨?_, rfl⟩
          dsimp only
          split <;> rfl
      | some entry =>
          obtain ⟨address, info⟩ := entry
          refine ⟨?_, rfl⟩
          dsimp only [afterHit]
          split <;> rfl
  · simp [asked, afterHit]

/-- The table after the software step of a thread: the entry it has stepped over is lost when the
trap cannot be put back. -/
def afterStep (access : Access) (threadId : Nat) (s : Pump) (table : TreeMap Nat BreakpointInfo) :
    TreeMap Nat BreakpointInfo :=
  match s.stepping[threadId]? with
  | none => table
  | some address =>
      match table[address]? with
      | none => table
      | some entry =>
          if entry.enabled = true ∧ access.write ≠ none then table.erase address else table

theorem rearm_breakpoints (address : Nat) :
    (rearm access address s).breakpoints =
      match s.breakpoints[address]? with
      | none => s.breakpoints
      | some entry =>
          if entry.enabled = true ∧ access.write ≠ none then s.breakpoints.erase address
          else s.breakpoints := by
  unfold rearm writeByte
  cases s.breakpoints[address]? with
  | none => rfl
  | some entry =>
      cases enabled : entry.enabled with
      | false => simp [enabled]
      | true => cases write : access.write <;> simp [enabled]

theorem handleSoftwareStep_breakpoints :
    (handleSoftwareStep access threadId s).1.breakpoints =
      afterStep access threadId s s.breakpoints := by
  unfold handleSoftwareStep afterStep
  cases s.stepping[threadId]? with
  | none => rfl
  | some address => exact rearm_breakpoints address

/-- A single step counts the hit of one entry, and may lose the one that it steps over. -/
theorem handleSingleStep_spec (access : Access) (cpu : Cpu) (threadId : Nat) (s : Pump) :
    (handleSingleStep access cpu threadId s).1.breakpoints =
        afterStep access threadId s (afterHit cpu threadId s (hitEntry access cpu s)) ∧
      (handleSingleStep access cpu threadId s).2.onHit =
        (hitEntry access cpu s).map fun entry => counted cpu threadId s entry.2 := by
  unfold handleSingleStep
  by_cases used : s.hardwareUsed = true
  · obtain ⟨table, hit⟩ := @handleHardwareHit_spec access cpu threadId s used
    have stepping := (hardwareHit_tables access cpu threadId s).1
    simp only [used, ↓reduceIte, handleSoftwareStep_breakpoints]
    refine ⟨?_, hit⟩
    rw [table, afterStep, afterStep, stepping]
  · simp only [used, Bool.false_eq_true, ↓reduceIte, handleSoftwareStep_breakpoints]
    simp [hitEntry, used, afterHit]

theorem afterHit_getElem? (hit : Option (Nat × BreakpointInfo)) (address : Nat) :
    (afterHit cpu threadId s hit)[address]? =
      match hit with
      | none => s.breakpoints[address]?
      | some (place, info) =>
          if address = place then some (counted cpu threadId s info)
          else s.breakpoints[address]? := by
  cases hit with
  | none => rfl
  | some entry =>
      obtain ⟨place, info⟩ := entry
      exact Tables.getElem?_insert

/-- The entry that is counted is there and has fired. -/
theorem hitEntry_fired {address : Nat} {info : BreakpointInfo}
    (hit : hitEntry access cpu s = some (address, info)) :
    s.breakpoints[address]? = some info ∧ Fired cpu info := by
  unfold hitEntry at hit
  split at hit
  · exact ⟨firedEntry_present hit, firedEntry_fired hit⟩
  · contradiction

/-- Where DR6 can be read and something has fired, a hit is counted. -/
theorem exists_hitEntry
    (asked : s.hardwareUsed = true ∧ access.openThread = true ∧ access.getContext = true)
    {address : Nat} {info : BreakpointInfo} (present : s.breakpoints[address]? = some info)
    (fired : Fired cpu info) : ∃ entry, hitEntry access cpu s = some entry := by
  unfold hitEntry
  simp only [asked, Bool.and_self, ↓reduceIte]
  cases found : firedEntry (cpu.debugStatus &&& debugStatusMask) s with
  | none => exact absurd fired (not_fired_of_none found present)
  | some entry => exact ⟨entry, rfl⟩

theorem counted_ne (info : BreakpointInfo) : counted cpu threadId s info ≠ info := by
  intro equal
  exact bump_ne _ (congrArg BreakpointInfo.hitCount equal)

/-- The software step leaves an entry as it is, or loses it. -/
theorem afterStep_getElem? (table : TreeMap Nat BreakpointInfo) (address : Nat) :
    (afterStep access threadId s table)[address]? = table[address]? ∨
      (afterStep access threadId s table)[address]? = none := by
  unfold afterStep
  split
  · exact Or.inl rfl
  · split
    · exact Or.inl rfl
    · split
      · rw [Tables.getElem?_erase]
        split
        · exact Or.inr rfl
        · exact Or.inl rfl
      · exact Or.inl rfl

/-- An entry that fired without being counted is not accounted for. -/
theorem Accounted.counts {watchedAddress : Nat}
    (accounted : Accounted access cpu threadId s watchedAddress) {address : Nat}
    {info : BreakpointInfo} (present : s.breakpoints[address]? = some info)
    (fired : Fired cpu info) : hitEntry access cpu s = some (address, info) := by
  have wanted := accounted.fired address info present fired
  rw [(handleSingleStep_spec access cpu threadId s).1] at wanted
  cases @afterStep_getElem? access threadId s (afterHit cpu threadId s (hitEntry access cpu s))
      address with
  | inr lost =>
      rw [lost] at wanted
      contradiction
  | inl kept =>
      rw [kept, afterHit_getElem?] at wanted
      cases hit : hitEntry access cpu s with
      | none =>
          simp only [hit, present, Option.some.injEq] at wanted
          exact absurd wanted.symm (counted_ne info)
      | some entry =>
          obtain ⟨place, other⟩ := entry
          simp only [hit] at wanted
          split at wanted
          · rename_i same
            have there := (hitEntry_fired hit).1
            rw [← same, present] at there
            rw [same, Option.some.inj there]
          · rw [present] at wanted
            exact absurd (Option.some.inj wanted).symm (counted_ne info)

/-- An enabled entry stays enabled with its hit counted. -/
theorem exists_afterHit {address : Nat} {info : BreakpointInfo}
    (present : s.breakpoints[address]? = some info) (enabled : info.enabled = true) :
    ∃ entry : BreakpointInfo, entry.enabled = true ∧
      (afterHit cpu threadId s (hitEntry access cpu s))[address]? = some entry := by
  rw [afterHit_getElem?]
  cases hit : hitEntry access cpu s with
  | none => exact ⟨info, enabled, present⟩
  | some entry =>
      obtain ⟨place, other⟩ := entry
      by_cases same : address = place
      · exact ⟨counted cpu threadId s other, (hitEntry_fired hit).2.2.1, if_pos same⟩
      · refine ⟨info, enabled, ?_⟩
        dsimp only
        rw [if_neg same, present]

/-- The entry that a thread steps over is lost when its trap cannot be put back. -/
theorem handleSingleStep_loses {address : Nat} {info : BreakpointInfo}
    (stepping : s.stepping[threadId]? = some address)
    (present : s.breakpoints[address]? = some info) (enabled : info.enabled = true)
    (failing : access.write ≠ none) :
    (handleSingleStep access cpu threadId s).1.breakpoints[address]? = none := by
  obtain ⟨entry, on, there⟩ := @exists_afterHit access cpu threadId s address info present enabled
  rw [(handleSingleStep_spec access cpu threadId s).1, afterStep, stepping]
  simp only [there, on, failing, ne_eq, not_false_eq_true, and_self, ↓reduceIte]
  rw [Tables.getElem?_erase, if_pos rfl]

/-- What is accounted for is not lost. -/
theorem Accounted.rearmed {watchedAddress : Nat}
    (accounted : Accounted access cpu threadId s watchedAddress) {address : Nat}
    {info : BreakpointInfo} (stepping : s.stepping[threadId]? = some address)
    (present : s.breakpoints[address]? = some info) (enabled : info.enabled = true) :
    access.write = none := by
  by_contra failing
  have gone := @handleSingleStep_loses access cpu threadId s address info stepping present enabled
    failing
  by_cases fired : Fired cpu info
  · rw [accounted.fired address info present fired] at gone
    contradiction
  · rw [accounted.others address, present] at gone
    · contradiction
    · intro other otherPresent
      rw [present] at otherPresent
      rwa [← Option.some.inj otherPresent]

/-- Of the entries that fire one is counted. -/
theorem OneHit.counts (oneHit : OneHit access cpu threadId s) {address : Nat}
    {info : BreakpointInfo} (present : s.breakpoints[address]? = some info)
    (fired : Fired cpu info) : hitEntry access cpu s = some (address, info) := by
  obtain ⟨⟨place, other⟩, hit⟩ :=
    exists_hitEntry (oneHit.asked address info present fired) present fired
  obtain ⟨there, otherFired⟩ := hitEntry_fired hit
  have same := oneHit.single address info place other present fired there otherFired
  rw [← same, present] at there
  rw [hit, ← same, Option.some.inj there]

/-- The entry that a thread steps over is enabled after the hit only if it was before. -/
theorem OneHit.afterStep_eq (oneHit : OneHit access cpu threadId s) :
    afterStep access threadId s (afterHit cpu threadId s (hitEntry access cpu s)) =
      afterHit cpu threadId s (hitEntry access cpu s) := by
  unfold afterStep
  split
  · rfl
  · rename_i address stepping
    split
    · rfl
    · rename_i entry there
      rw [afterHit_getElem?] at there
      apply if_neg
      rintro ⟨enabled, failing⟩
      apply failing
      split at there
      · exact oneHit.rearmed address entry stepping there enabled
      · rename_i place info hit
        split at there
        · rename_i same
          have present := (hitEntry_fired hit).1
          rw [← same] at present
          exact oneHit.rearmed address info stepping present (hitEntry_fired hit).2.2.1
        · exact oneHit.rearmed address entry stepping there enabled

/-- A single step accounts for its hits, and the watch for its own, exactly where at most one
breakpoint has fired, it can be asked for, and no re-arming fails. -/
theorem singleStep_accounted_iff (access : Access) (cpu : Cpu) (threadId : Nat) (s : Pump)
    (watchedAddress : Nat) :
    Accounted access cpu threadId s watchedAddress ↔ OneHit access cpu threadId s := by
  constructor
  · intro accounted
    constructor
    · intro address info other otherInfo present fired otherPresent otherFired
      have one := accounted.counts present fired
      rw [accounted.counts otherPresent otherFired] at one
      exact (congrArg Prod.fst (Option.some.inj one)).symm
    · intro address info present fired
      have hit := accounted.counts present fired
      unfold hitEntry at hit
      split at hit
      · rename_i asked
        simpa [and_assoc] using asked
      · contradiction
    · intro address info stepping present enabled
      exact accounted.rearmed stepping present enabled
  · intro oneHit
    obtain ⟨table, onHit⟩ := handleSingleStep_spec access cpu threadId s
    rw [oneHit.afterStep_eq] at table
    constructor
    · intro address info present fired
      rw [table, afterHit_getElem?, oneHit.counts present fired]
      exact if_pos rfl
    · intro address quiet
      rw [table, afterHit_getElem?]
      split
      · rfl
      · rename_i place info hit
        obtain ⟨there, fired⟩ := hitEntry_fired hit
        apply if_neg
        intro same
        rw [← same] at there
        exact quiet info there fired
    · intro address info present fired watched
      rw [onHit, oneHit.counts present fired]
      simp [hitCallback, counted, ThreadContext.capture, watched]

def watchOn (address : Nat) (slot : Fin 4) : BreakpointInfo :=
  { address, enabled := true, kind := .hardwareWrite, length := 4, slot := some slot }

/-- Two watches next to each other, and a thread whose last instruction wrote to both. -/
def twoWatches (first second : Fin 4) : Pump where
  hardwareUsed := true
  breakpoints := TreeMap.ofList [(0x1000, watchOn 0x1000 first), (0x1004, watchOn 0x1004 second)]
  memory := fun _ => 0

def wroteBoth : Cpu := { debugStatus := 0b11 }

/-- The second watch is neither counted nor reported. -/
theorem singleStep_misses :
    (twoWatches 0 1).breakpoints[0x1004]? = some (watchOn 0x1004 1) ∧
      Fired wroteBoth (watchOn 0x1004 1) ∧
      (handleSingleStep {} wroteBoth 7 (twoWatches 0 1)).1.breakpoints[0x1004]? =
        some (watchOn 0x1004 1) ∧
      (handleSingleStep {} wroteBoth 7 (twoWatches 0 1)).2.onHit.bind (hitCallback 0x1004) =
        none := by
  refine ⟨by decide +kernel, ⟨rfl, rfl, 1, rfl, by decide⟩, by decide +kernel, by decide +kernel⟩

end PointerLab.DebugPump
