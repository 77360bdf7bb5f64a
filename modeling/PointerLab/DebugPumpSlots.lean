import Mathlib.Data.Fintype.Card
import PointerLab.DebugPumpRegisters
import PointerLab.DebugPumpTraps

set_option autoImplicit false

/- The table and the threads under calls and new threads: slots are given out once, and the
registers of every thread that can be programmed decode back to the table. -/
namespace PointerLab.DebugPump

open Domain Std Runs

variable {s : Pump} {access : Access} {address : Nat}

/-- Every hardware entry has a slot of its own. -/
structure Slotted (s : Pump) : Prop where
  fits : ∀ (address : Nat) (info : BreakpointInfo), s.breakpoints[address]? = some info →
    isHardware info.kind = true → Fits s.wow64 (address, info)
  apart : ∀ (first second : Nat) (one other : BreakpointInfo),
    s.breakpoints[first]? = some one → s.breakpoints[second]? = some other →
      isHardware one.kind = true → isHardware other.kind = true → one.slot = other.slot →
        first = second

/-- The debug registers of a thread are the hardware entries of the table, slot by slot, and
nothing else. -/
def Shows (s : Pump) (context : ThreadContext) : Prop :=
  ∀ (slot : Fin 4) (watch : Watch), decodeSlot context slot = some watch ↔
    ∃ (address : Nat) (info : BreakpointInfo), s.breakpoints[address]? = some info ∧
      isHardware info.kind = true ∧ info.slot = some slot ∧ watch = watchOf (address, info)

/-- A thread programmed from a slotted table shows it. -/
theorem shows_programmed (slotted : Slotted s) (context : ThreadContext) :
    Shows s (writeDebugRegisters s context) := by
  intro slot watch
  rw [writeDebugRegisters, debugRegisters_eq]
  have listed (entry : Nat × BreakpointInfo) :
      entry ∈ s.breakpoints.toList ↔ s.breakpoints[entry.1]? = some entry.2 :=
    TreeMap.mem_toList_iff_getElem?_eq_some
  by_cases taken : ∃ entry ∈ s.breakpoints.toList, OnSlot slot entry
  · obtain ⟨entry, inside, on⟩ := taken
    have present := (listed entry).mp inside
    have only : ∀ other ∈ s.breakpoints.toList, OnSlot slot other → other = entry := by
      intro other also onSlot
      have there := (listed other).mp also
      have same := slotted.apart other.1 entry.1 other.2 entry.2 there present onSlot.1 on.1
        (onSlot.2.2.trans on.2.2.symm)
      refine Prod.ext same (Option.some.inj (there.symm.trans ?_))
      rw [same]
      exact present
    have shown := @foldl_armEntry_on slot entry (fun _ => 0, 0) _ on inside only
      fun _ _ => Or.inl (by simp [field])
    rw [decodeSlot_shown context on (slotted.fits entry.1 entry.2 present on.1) shown]
    constructor
    · intro same
      exact ⟨entry.1, entry.2, present, on.1, on.2.2, (Option.some.inj same).symm⟩
    · rintro ⟨place, info, there, hardware, onSlot, rfl⟩
      have armed := (slotted.fits place info there hardware).enabled
      rw [only (place, info) ((listed _).mpr there) ⟨hardware, armed, onSlot⟩]
  · have off : ∀ other ∈ s.breakpoints.toList, ¬ OnSlot slot other :=
      fun other inside on => taken ⟨other, inside, on⟩
    have same := @foldl_armEntry_off slot (fun _ => 0, 0) _ off
    have clear := same.control (slot.val * 2) (by simp [places])
    rw [decodeSlot_disabled context (clear.trans (by simp [field]))]
    constructor
    · intro impossible
      contradiction
    · rintro ⟨place, info, there, hardware, onSlot, _⟩
      have armed := (slotted.fits place info there hardware).enabled
      exact absurd ⟨hardware, armed, onSlot⟩ (off (place, info) ((listed _).mpr there))

/-- There are no more hardware entries than debug registers. -/
theorem hardware_le_four (slotted : Slotted s) :
    (s.breakpoints.toList.filter fun entry => isHardware entry.2.kind).length ≤ 4 := by
  have listed (entry : Nat × BreakpointInfo)
      (inside : entry ∈ s.breakpoints.toList.filter fun entry => isHardware entry.2.kind) :
      s.breakpoints[entry.1]? = some entry.2 ∧ isHardware entry.2.kind = true := by
    obtain ⟨member, hardware⟩ := List.mem_filter.mp inside
    exact ⟨TreeMap.mem_toList_iff_getElem?_eq_some.mp member, hardware⟩
  have once : s.breakpoints.toList.Nodup := by
    refine TreeMap.distinct_keys_toList.imp fun {first second} differ same => differ ?_
    rw [same]
    exact Nat.compare_eq_eq.mpr rfl
  have slots : ((s.breakpoints.toList.filter fun entry => isHardware entry.2.kind).map
      fun entry => entry.2.slot.getD 0).Nodup := by
    refine (once.filter _).map_on fun first one second other same => ?_
    obtain ⟨there, hardware⟩ := listed first one
    obtain ⟨here, alsoHardware⟩ := listed second other
    have some_ := (slotted.fits first.1 first.2 there hardware).slot
    have alsoSome := (slotted.fits second.1 second.2 here alsoHardware).slot
    have sameSlot : first.2.slot = second.2.slot := by
      obtain ⟨slot, known⟩ := Option.ne_none_iff_exists'.mp some_
      obtain ⟨slot', known'⟩ := Option.ne_none_iff_exists'.mp alsoSome
      rw [known, known'] at same ⊢
      exact congrArg some same
    have sameAddress := slotted.apart first.1 second.1 first.2 second.2 there here hardware
      alsoHardware sameSlot
    refine Prod.ext sameAddress (Option.some.inj (there.symm.trans ?_))
    rw [sameAddress]
    exact here
  have bound := slots.length_le_card
  rwa [List.length_map, Fintype.card_fin] at bound

/-- The slot `freeDebugSlot` gives is no hardware entry's. -/
theorem freeDebugSlot_free {slot : Fin 4} (found : freeDebugSlot s = some slot) {place : Nat}
    {info : BreakpointInfo} (present : s.breakpoints[place]? = some info)
    (hardware : isHardware info.kind = true) : info.slot ≠ some slot := by
  intro taken
  have free := List.find?_some
    (p := fun slot => !s.breakpoints.toList.any fun entry =>
      isHardware entry.2.kind && entry.2.slot == some slot) found
  have used : s.breakpoints.toList.any (fun entry =>
      isHardware entry.2.kind && entry.2.slot == some slot) = true :=
    List.any_eq_true.mpr ⟨(place, info), TreeMap.mem_toList_iff_getElem?_eq_some.mpr present,
      by simp [hardware, taken]⟩
  rw [used] at free
  exact absurd free (by decide)

/-- The ways a call of `addBreakpoint` ends. -/
inductive Adds (access : Access) (address : Nat) (kind : BreakpointKind) (s : Pump) :
    Pump × Result Unit → Prop
  | refused (failure : Failure) : Adds access address kind s (s, .error failure)
  | software (t : Pump) (info : BreakpointInfo) (isSoftware : isHardware kind = false)
      (same : isHardware info.kind = false) (free : s.breakpoints[address]? = none)
      (table : t.breakpoints = s.breakpoints.insert address info) (threads : t.threads = s.threads)
      (wow64 : t.wow64 = s.wow64) : Adds access address kind s (t, .ok ())
  | hardware (info : BreakpointInfo) (slot : Fin 4) (isHard : isHardware kind = true)
      (same : info.kind = kind) (enabled : info.enabled = true) (taken : info.slot = some slot)
      (valid : isValidWatchLength info.length = true) (found : freeDebugSlot s = some slot)
      (free : s.breakpoints[address]? = none) :
      Adds access address kind s
        (applyDebugRegistersToAllThreads access
          { s with breakpoints := s.breakpoints.insert address info, hardwareUsed := true }, .ok ())

theorem addBreakpoint_adds (access : Access) (address : Nat) (label : String)
    (kind : BreakpointKind) (length : Nat) (s : Pump) :
    Adds access address kind s (addBreakpoint access address label kind length s) := by
  unfold addBreakpoint
  split
  · exact .refused _
  · split
    · exact .refused _
    · rename_i unused
      have free : s.breakpoints[address]? = none := by
        rw [TreeMap.contains_eq_isSome_getElem?] at unused
        simpa using unused
      split
      · rename_i hardware
        unfold addHardwareBreakpoint
        dsimp only
        generalize (if kind = .hardwareExecute then 1 else length) = length
        split
        · exact .refused _
        · rename_i valid
          split
          · exact .refused _
          · split
            · exact .refused _
            · rename_i slot found
              exact .hardware _ slot hardware rfl rfl rfl (by simpa using valid) found free
      · rename_i soft
        split
        · exact .refused _
        · split
          · exact .refused _
          · split
            · exact .refused _
            · rename_i t written
              have writes : access.write = none := by
                unfold writeByte at written
                split at written
                · contradiction
                · assumption
              have result := (writeByte_ok (s := s) address int3 writes).symm.trans written
              obtain rfl : _ = t := Except.ok.inj result
              exact .software _ _ (by simpa using soft) rfl free rfl rfl rfl

/-- A removal that reprograms the threads. -/
def removesHardware (address : Nat) (s : Pump) : Bool :=
  s.attached && (s.breakpoints[address]?.any fun entry => isHardware entry.kind)

/-- The ways a call of `removeBreakpoint` leaves the pump. -/
inductive Removes (access : Access) (address : Nat) (s : Pump) : Pump → Prop
  | refused (kept : removesHardware address s = false) : Removes access address s s
  | hardware (reprograms : removesHardware address s = true) :
      Removes access address s
        (applyDebugRegistersToAllThreads access { s with breakpoints := s.breakpoints.erase address })
  | software (t : Pump) (entry : BreakpointInfo) (kept : removesHardware address s = false)
      (present : s.breakpoints[address]? = some entry) (isSoftware : isHardware entry.kind = false)
      (table : t.breakpoints = s.breakpoints.erase address) (threads : t.threads = s.threads)
      (wow64 : t.wow64 = s.wow64) : Removes access address s t

theorem removeBreakpoint_removes (access : Access) (address : Nat) (s : Pump) :
    Removes access address s (removeBreakpoint access address s).1 := by
  unfold removeBreakpoint
  split
  · rename_i detached
    exact .refused (by simp [removesHardware, (Bool.not_eq_true' _).mp detached])
  · rename_i attached
    split
    · rename_i absent
      exact .refused (by simp [removesHardware, absent])
    · rename_i entry present
      split
      · rename_i hardware
        exact .hardware (by simpa [removesHardware, present, hardware] using attached)
      · rename_i soft
        have isSoftware : isHardware entry.kind = false := by simpa using soft
        have kept : removesHardware address s = false := by
          simp [removesHardware, present, isSoftware]
        dsimp only
        split
        · exact .software _ entry kept present isSoftware rfl rfl rfl
        · unfold writeByte
          split
          · rename_i failed
            split at failed
            · exact .software _ entry kept present isSoftware rfl rfl rfl
            · contradiction
          · rename_i written
            split at written
            · contradiction
            · obtain rfl := Except.ok.inj written
              exact .software _ entry kept present isSoftware rfl rfl rfl

/-- Putting an entry into the table that is none of hardware, or fits a slot nobody has. -/
theorem Slotted.insert {t : Pump} {info : BreakpointInfo} (slotted : Slotted s)
    (free : s.breakpoints[address]? = none)
    (table : t.breakpoints = s.breakpoints.insert address info) (wow64 : t.wow64 = s.wow64)
    (fits : isHardware info.kind = true → Fits s.wow64 (address, info) ∧
      ∃ slot, info.slot = some slot ∧ freeDebugSlot s = some slot) : Slotted t := by
  have old {place : Nat} {shown : BreakpointInfo} (present : t.breakpoints[place]? = some shown) :
      (place = address ∧ info = shown) ∨ (place ≠ address ∧ s.breakpoints[place]? = some shown) :=
    Tables.eq_some_of_insert (table ▸ present)
  constructor
  · intro place shown present hardware
    rw [wow64]
    rcases old present with ⟨rfl, rfl⟩ | ⟨_, before⟩
    · exact (fits hardware).1
    · exact slotted.fits place shown before hardware
  · intro first second one other there here hardware alsoHardware same
    rcases old there with ⟨rfl, rfl⟩ | ⟨_, before⟩ <;>
      rcases old here with ⟨rfl, rfl⟩ | ⟨_, alsoBefore⟩
    · rfl
    · obtain ⟨_, slot, taken, found⟩ := fits hardware
      exact absurd (same.symm.trans taken) (freeDebugSlot_free found alsoBefore alsoHardware)
    · obtain ⟨_, slot, taken, found⟩ := fits alsoHardware
      exact absurd (same.trans taken) (freeDebugSlot_free found before hardware)
    · exact slotted.apart first second one other before alsoBefore hardware alsoHardware same

theorem Slotted.erase {t : Pump} (slotted : Slotted s)
    (table : t.breakpoints = s.breakpoints.erase address) (wow64 : t.wow64 = s.wow64) :
    Slotted t := by
  have old {place : Nat} {shown : BreakpointInfo} (present : t.breakpoints[place]? = some shown) :
      s.breakpoints[place]? = some shown := (Tables.eq_some_of_erase (table ▸ present)).2
  constructor
  · intro place shown present hardware
    rw [wow64]
    exact slotted.fits place shown (old present) hardware
  · intro first second one other there here
    exact slotted.apart first second one other (old there) (old here)

/-- A change of the table that keeps its hardware entries keeps what every thread shows. -/
theorem Shows.congr {t : Pump} {context : ThreadContext} (shows : Shows s context)
    (same : ∀ (place : Nat) (info : BreakpointInfo), isHardware info.kind = true →
      (t.breakpoints[place]? = some info ↔ s.breakpoints[place]? = some info)) :
    Shows t context := by
  intro slot watch
  rw [shows slot watch]
  constructor
  · rintro ⟨place, info, present, hardware, onSlot, rfl⟩
    exact ⟨place, info, (same place info hardware).mpr present, hardware, onSlot, rfl⟩
  · rintro ⟨place, info, present, hardware, onSlot, rfl⟩
    exact ⟨place, info, (same place info hardware).mp present, hardware, onSlot, rfl⟩

/-- The pump, and of each thread whether its registers could be set when they last had to be.
A thread that comes with every slot disabled needs nothing set as long as nothing is armed. -/
structure Programmed where
  pump : Pump
  current : Nat → Bool

/-- No slot is enabled. -/
def idle (context : ThreadContext) : Bool :=
  (List.finRange 4).all fun slot => field context.debugControl (slot.val * 2) == 0

namespace Programmed

/-- The threads that are up to date after a call or the creation of a thread. -/
def currentAfter (s : Programmed) : Event → Nat → Bool
  | .addBreakpoint address label kind length access =>
      if isHardware kind && (addBreakpoint access address label kind length s.pump).2.isOk then
        access.program
      else s.current
  | .removeBreakpoint address access =>
      if removesHardware address s.pump then access.program else s.current
  | .threadCreate threadId context access =>
      Function.update s.current threadId
        (if anyHardwareArmed s.pump then access.program threadId else idle context)
  | _ => s.current

def step (s : Programmed) (event : Event) : Programmed where
  pump := DebugPump.step s.pump event
  current := s.currentAfter event

/-- A pump that has just attached. -/
def begun (memory : Nat → UInt8) (wow64 : Bool) (threads : TreeMap Nat ThreadContext) :
    Programmed where
  pump := attachedTo memory wow64 threads
  current threadId := threads[threadId]?.any idle

/-- Calls and new threads only, and in a WOW64 target no hardware breakpoint at an address
that a 32-bit register cannot hold. -/
def Within (s : Programmed) : Event → Prop
  | .addBreakpoint address _ kind _ _ =>
      s.pump.wow64 = true → isHardware kind = true → address < 0x100000000
  | .removeBreakpoint .. => True
  | .threadCreate .. => True
  | _ => False

instance (s : Programmed) : (event : Event) → Decidable (Within s event)
  | .addBreakpoint .. => inferInstanceAs (Decidable (_ → _ → _))
  | .removeBreakpoint .. => isTrue trivial
  | .threadCreate .. => isTrue trivial
  | .breakpoint .. => isFalse not_false
  | .singleStep .. => isFalse not_false
  | .threadExit .. => isFalse not_false

/-- Slots are given out once, and a thread whose registers could be set shows the table. -/
structure Right (s : Programmed) : Prop where
  slotted : Slotted s.pump
  shows : ∀ (threadId : Nat) (context : ThreadContext), s.pump.threads[threadId]? = some context →
    s.current threadId = true → Shows s.pump context

theorem shows_idle {context : ThreadContext} (off : idle context = true)
    (unarmed : ∀ (place : Nat) (info : BreakpointInfo), s.breakpoints[place]? = some info →
      isHardware info.kind = false) : Shows s context := by
  intro slot watch
  have clear := List.all_eq_true.mp off slot (List.mem_finRange slot)
  rw [beq_iff_eq] at clear
  simp only [decodeSlot, clear, ↓reduceIte]
  constructor
  · intro impossible
    contradiction
  · rintro ⟨place, info, present, hardware, _⟩
    exact absurd (hardware.symm.trans (unarmed place info present)) (by decide)

theorem right_begun (memory : Nat → UInt8) (wow64 : Bool) (threads : TreeMap Nat ThreadContext) :
    Right (begun memory wow64 threads) := by
  have empty (place : Nat) : (attachedTo memory wow64 threads).breakpoints[place]? = none :=
    TreeMap.getElem?_emptyc
  refine ⟨⟨?_, ?_⟩, ?_⟩
  · intro place info present
    exact nomatch (empty place).symm.trans present
  · intro first second one other present
    exact nomatch (empty first).symm.trans present
  · intro threadId context present current
    have own : threads[threadId]? = some context := present
    refine shows_idle ?_ fun place info there => nomatch (empty place).symm.trans there
    simpa [begun, own] using current

/-- Programming all threads from a slotted table leaves those right whose registers can be
set. -/
theorem right_programmed {t : Pump} (slotted : Slotted t) (access : Access) :
    Right ⟨applyDebugRegistersToAllThreads access t, access.program⟩ := by
  refine ⟨⟨slotted.fits, slotted.apart⟩, fun threadId context present current => ?_⟩
  have settable : access.program threadId = true := current
  simp only [applyDebugRegistersToAllThreads, TreeMap.getElem?_map, Option.map_eq_some_iff,
    settable, ↓reduceIte] at present
  obtain ⟨before, _, rfl⟩ := present
  exact (shows_programmed slotted before).congr fun _ _ _ => Iff.rfl

theorem right_addBreakpoint {s : Programmed} (right : Right s) {address : Nat} {label : String}
    {kind : BreakpointKind} {length : Nat} {access : Access}
    (within : s.pump.wow64 = true → isHardware kind = true → address < 0x100000000) :
    Right (s.step (.addBreakpoint address label kind length access)) := by
  have adds := addBreakpoint_adds access address label kind length s.pump
  simp only [step, currentAfter, DebugPump.step]
  generalize addBreakpoint access address label kind length s.pump = result at adds
  cases adds with
  | refused failure =>
      rw [if_neg (by simp [Except.isOk, Except.toBool])]
      exact right
  | software t info isSoftware same free table threads wow64 =>
      rw [if_neg (by simp [isSoftware])]
      refine ⟨right.slotted.insert free table wow64 (by simp [same]), ?_⟩
      intro threadId context present current
      refine (right.shows threadId context (threads ▸ present) current).congr ?_
      intro place shown hardware
      show t.breakpoints[place]? = some shown ↔ _
      rw [table, Tables.getElem?_insert]
      split
      · rename_i here
        rw [here, free]
        constructor
        · intro equal
          rw [← Option.some.inj equal, same] at hardware
          exact absurd hardware Bool.false_ne_true
        · intro impossible
          contradiction
      · exact Iff.rfl
  | hardware info slot isHard same enabled taken valid found free =>
      rw [if_pos (by simp [isHard, Except.isOk, Except.toBool])]
      have fits : Fits s.pump.wow64 (address, info) :=
        ⟨enabled, by simp [taken], valid, fun wide => within wide isHard⟩
      have slotted : Slotted { s.pump with
          breakpoints := s.pump.breakpoints.insert address info, hardwareUsed := true } :=
        right.slotted.insert free rfl rfl fun _ => ⟨fits, slot, taken, found⟩
      exact right_programmed slotted access

theorem right_removeBreakpoint {s : Programmed} (right : Right s) {address : Nat}
    {access : Access} : Right (s.step (.removeBreakpoint address access)) := by
  have removes := removeBreakpoint_removes access address s.pump
  simp only [step, currentAfter, DebugPump.step]
  generalize (removeBreakpoint access address s.pump).1 = t at removes
  cases removes with
  | refused kept =>
      rw [if_neg (by simp [kept])]
      exact right
  | hardware reprograms =>
      rw [if_pos reprograms]
      have slotted : Slotted { s.pump with
          breakpoints := s.pump.breakpoints.erase address } := right.slotted.erase rfl rfl
      exact right_programmed slotted access
  | software _ entry kept present isSoftware table threads wow64 =>
      rw [if_neg (by simp [kept])]
      refine ⟨right.slotted.erase table wow64, fun threadId context known current => ?_⟩
      refine (right.shows threadId context (threads ▸ known) current).congr ?_
      intro place shown hardware
      show t.breakpoints[place]? = some shown ↔ _
      rw [table, Tables.getElem?_erase]
      split
      · rename_i here
        rw [here, present]
        constructor
        · intro impossible
          contradiction
        · intro equal
          rw [← Option.some.inj equal, isSoftware] at hardware
          exact absurd hardware Bool.false_ne_true
      · exact Iff.rfl

/-- A new thread is programmed from the table where anything is armed. -/
theorem handleThreadCreate_created (access : Access) (threadId : Nat) (context : ThreadContext)
    (s : Pump) :
    (handleThreadCreate access threadId context s).breakpoints = s.breakpoints ∧
      (handleThreadCreate access threadId context s).wow64 = s.wow64 ∧
      ∀ thread : Nat, (handleThreadCreate access threadId context s).threads[thread]? =
        if thread = threadId then
          some (if anyHardwareArmed s && access.program threadId then writeDebugRegisters s context
            else context)
        else s.threads[thread]? := by
  have armed : anyHardwareArmed { s with threads := s.threads.insert threadId context } =
      anyHardwareArmed s := rfl
  simp only [handleThreadCreate, armed]
  split
  · refine ⟨rfl, rfl, fun thread => ?_⟩
    show ((s.threads.insert threadId context).insert threadId _)[thread]? = _
    rw [Tables.getElem?_insert, Tables.getElem?_insert]
    split
    · rfl
    · rfl
  · refine ⟨rfl, rfl, fun thread => ?_⟩
    exact Tables.getElem?_insert

theorem right_threadCreate {s : Programmed} (right : Right s) (threadId : Nat)
    (context : ThreadContext) (access : Access) :
    Right (s.step (.threadCreate threadId context access)) := by
  obtain ⟨table, wow64, threads⟩ := handleThreadCreate_created access threadId context s.pump
  have slotted : Slotted (handleThreadCreate access threadId context s.pump) :=
    ⟨table ▸ wow64 ▸ right.slotted.fits, table ▸ right.slotted.apart⟩
  refine ⟨slotted, fun thread shown present current => ?_⟩
  have same (shows : Shows s.pump shown) :
      Shows (handleThreadCreate access threadId context s.pump) shown :=
    shows.congr fun _ _ _ => by rw [table]
  apply same
  have known : (handleThreadCreate access threadId context s.pump).threads[thread]? = some shown :=
    present
  rw [threads] at known
  simp only [step, currentAfter, Function.update_apply] at current
  split at known
  · rename_i here
    rw [if_pos here] at current
    obtain rfl := Option.some.inj known
    cases armed : anyHardwareArmed s.pump with
    | true =>
        rw [armed, if_pos rfl] at current
        rw [current, Bool.and_self, if_pos rfl]
        exact shows_programmed right.slotted context
    | false =>
        rw [armed, if_neg (by decide)] at current
        rw [Bool.false_and, if_neg (by decide)]
        refine shows_idle current fun place info there => ?_
        rw [Bool.eq_false_iff]
        intro hardware
        have enabled : info.enabled = true :=
          (right.slotted.fits place info there hardware).enabled
        have on : anyHardwareArmed s.pump = true :=
          List.any_eq_true.mpr ⟨(place, info), TreeMap.mem_toList_iff_getElem?_eq_some.mpr there,
            by simp [hardware, enabled]⟩
        exact absurd (on.symm.trans armed) (by decide)
  · rename_i elsewhere
    rw [if_neg elsewhere] at current
    exact right.shows thread shown known current

theorem right_step {s : Programmed} {event : Event} (right : Right s) (within : Within s event) :
    Right (s.step event) := by
  cases event with
  | addBreakpoint address label kind length access => exact right_addBreakpoint right within
  | removeBreakpoint address access => exact right_removeBreakpoint right
  | threadCreate threadId context access => exact right_threadCreate right threadId context access
  | breakpoint address threadId cpu access => exact absurd within not_false
  | singleStep threadId cpu access => exact absurd within not_false
  | threadExit threadId access => exact absurd within not_false

/-- Over all calls and new threads the hardware entries have slots of their own, at most four,
and every thread whose registers could be set decodes back to exactly these entries. -/
theorem registers_decode {memory : Nat → UInt8} {wow64 : Bool}
    {threads : TreeMap Nat ThreadContext} {s : Programmed}
    (reached : Reached step Within (begun memory wow64 threads) s) :
    (∀ (address : Nat) (info : BreakpointInfo), s.pump.breakpoints[address]? = some info →
        isHardware info.kind = true → ∃ slot : Fin 4, info.slot = some slot ∧
          ∀ (other : Nat) (second : BreakpointInfo), s.pump.breakpoints[other]? = some second →
            isHardware second.kind = true → second.slot = some slot → other = address) ∧
      (s.pump.breakpoints.toList.filter fun entry => isHardware entry.2.kind).length ≤ 4 ∧
      ∀ (threadId : Nat) (context : ThreadContext), s.pump.threads[threadId]? = some context →
        s.current threadId = true → Shows s.pump context := by
  have right : Right s := reached.invariant (right_begun memory wow64 threads)
    fun _ _ right within => right_step right within
  refine ⟨?_, hardware_le_four right.slotted, right.shows⟩
  intro address info present hardware
  have some_ := (right.slotted.fits address info present hardware).slot
  obtain ⟨slot, taken⟩ := Option.ne_none_iff_exists'.mp some_
  refine ⟨slot, taken, fun other second there alsoHardware same => ?_⟩
  exact right.slotted.apart other address second info there present alsoHardware hardware
    (same.trans taken.symm)

/-- A WOW64 target with one thread. -/
def smallTarget : Programmed :=
  begun (fun _ => 0x90) true ((∅ : TreeMap Nat ThreadContext).insert 1 {})

/-- Two watches and a software breakpoint, a thread that comes later, and one watch removed. -/
def mixedCalls : List Event :=
  [.addBreakpoint 0x401000 "" .software 1 {}, .addBreakpoint 0x500008 "" .hardwareReadWrite 8 {},
    .addBreakpoint 0x402000 "" .hardwareExecute 4 {}, .threadCreate 2 {} {},
    .removeBreakpoint 0x500008 {}, .addBreakpoint 0x500004 "" .hardwareWrite 4 {}]

theorem mixedCalls_decode :
    Follows step Within smallTarget mixedCalls ∧
      ∀ (threadId : Nat) (context : ThreadContext),
        (run step smallTarget mixedCalls).pump.threads[threadId]? = some context →
          (run step smallTarget mixedCalls).current threadId = true →
            Shows (run step smallTarget mixedCalls).pump context := by
  have follows : Follows step Within smallTarget mixedCalls := by decide
  exact ⟨follows, (registers_decode follows.reached).2.2⟩

/-- Nothing keeps a watch above 4 GB out of a 32-bit register, and the thread watches another
address. -/
theorem wideAddress_misread :
    (addBreakpoint {} 0x100001000 "" .hardwareWrite 4 smallTarget.pump).2.isOk = true ∧
      (smallTarget.step (.addBreakpoint 0x100001000 "" .hardwareWrite 4 {})).current 1 = true ∧
      ∃ context : ThreadContext,
        (smallTarget.step (.addBreakpoint 0x100001000 "" .hardwareWrite 4 {})).pump.threads[1]? =
          some context ∧
        decodeSlot context 0 = some ⟨0x1000, some .hardwareWrite, 4⟩ ∧
        ¬ Shows (smallTarget.step (.addBreakpoint 0x100001000 "" .hardwareWrite 4 {})).pump
          context := by
  refine ⟨by decide, by decide, _, rfl, by decide, fun shows => ?_⟩
  obtain ⟨address, info, present, hardware, _, same⟩ :=
    (shows 0 ⟨0x1000, some .hardwareWrite, 4⟩).mp (by decide)
  have here : address = 0x1000 := (congrArg Watch.address same).symm
  have absent : (smallTarget.step
      (.addBreakpoint 0x100001000 "" .hardwareWrite 4 {})).pump.breakpoints[0x1000]? = none := by
    decide
  rw [here] at present
  exact absurd (absent.symm.trans present) (Option.some_ne_none info).symm

end Programmed

end PointerLab.DebugPump
