import PointerLab.AccessWatch
import PointerLab.DebugPumpSlots
import PointerLab.DebugPumpSession

set_option autoImplicit false

/- `services/RuntimeServices.cpp`: the breakpoints the user sets and the access watch, which
share one table. -/
namespace PointerLab

open Domain DebugPump Std

/-- The session, the access watch and the debug pump. -/
structure RuntimeServices where
  attached : Bool := false
  watch : AccessWatch := {}
  pump : Pump

/-- How attaching the pump's debugger to the target ends. -/
inductive Opening where
  | notOpened (error : String) (code : Nat)
  | notDebugged (error : String) (code : Nat)
  | debugging (wow64 : Bool) (memory : Nat → UInt8) (threads : TreeMap Nat ThreadContext)

namespace RuntimeServices

/-- `DebugEventPump::attach`. -/
def attachPump (opening : Opening) (s : Pump) : Pump × Result Unit :=
  let s := clear s
  match opening with
  | .notOpened error code =>
      (s, fail ("Could not open the target for debugging: " ++ error) code)
  | .notDebugged error code => (s, fail ("Could not attach the debugger: " ++ error) code)
  | .debugging wow64 memory threads =>
      ({ s with attached := true, wow64, memory, threads }, .ok ())

def attachDebugger (opening : Opening) (s : RuntimeServices) : RuntimeServices × Result Unit :=
  if !s.attached then (s, fail "No target process is attached.")
  else if s.pump.attached then (s, .ok ())
  else
    let (pump, attached) := attachPump opening s.pump
    ({ s with pump }, attached)

/-- `BreakpointService::addBreakpoint`. -/
def addBreakpoint (opening : Opening) (access : Access) (address : Nat) (label : String)
    (kind : BreakpointKind) (length : Nat) (s : RuntimeServices) : RuntimeServices × Result Unit :=
  match attachDebugger opening s with
  | (s, .error failure) => (s, .error failure)
  | (s, .ok ()) =>
      let (pump, added) := DebugPump.addBreakpoint access address label kind length s.pump
      ({ s with pump }, added)

/-- `BreakpointService::removeBreakpoint`. -/
def removeBreakpoint (access : Access) (address : Nat) (s : RuntimeServices) :
    RuntimeServices × Result Unit :=
  let (pump, removed) := DebugPump.removeBreakpoint access address s.pump
  ({ s with pump }, removed)

def watchKind (writesOnly : Bool) : BreakpointKind :=
  if writesOnly then .hardwareWrite else .hardwareReadWrite

def watchLabel (writesOnly : Bool) (address : Nat) : String :=
  (if writesOnly then "writes to " else "accesses ") ++ hexString address

def startAccessWatch (opening : Opening) (access : Access) (address length : Nat)
    (writesOnly : Bool) (s : RuntimeServices) : RuntimeServices × Result Unit :=
  if !s.attached then (s, fail "Attach to a process before watching an address.")
  else if !isValidWatchLength length then
    (s, fail "A data breakpoint watches 1, 2, 4 or 8 bytes.")
  else if 1 < length && address % length != 0 then
    (s, fail (s!"A {length}-byte watch must be on a {length}-byte aligned address; "
      ++ hexString address ++ " is not."))
  else
    match attachDebugger opening s with
    | (s, .error failure) => (s, .error failure)
    | (s, .ok ()) =>
        -- Recording starts before the breakpoint is armed, so no hit finds it stopped.
        let s := { s with watch := s.watch.start address length (watchKind writesOnly) }
        match addBreakpoint opening access address (watchLabel writesOnly address)
          (watchKind writesOnly) length s with
        | (s, .error failure) => ({ s with watch := s.watch.stop }, .error failure)
        | (s, .ok ()) => (s, .ok ())

def stopAccessWatch (access : Access) (s : RuntimeServices) : RuntimeServices :=
  let address := s.watch.watched
  let s := { s with watch := s.watch.stop }
  if address != 0 then (removeBreakpoint access address s).1 else s

/-- The breakpoint table. -/
def table (s : RuntimeServices) : TreeMap Nat BreakpointInfo := s.pump.breakpoints

/-- The arguments pass the checks that come before anything is touched. -/
def Accepted (address length : Nat) (s : RuntimeServices) : Prop :=
  s.attached = true ∧ isValidWatchLength length = true ∧
    (1 < length && address % length != 0) = false

/-- A debugger is there, or can be attached. -/
def Opens (opening : Opening) (s : RuntimeServices) : Prop :=
  s.pump.attached = true ∨ ∃ wow64 memory threads, opening = .debugging wow64 memory threads

section Pump

variable (access : Access) (address : Nat) (label : String) (kind : BreakpointKind) (length : Nat)
  (s : Pump)

theorem pumpAdd_attached :
    (DebugPump.addBreakpoint access address label kind length s).1.attached = s.attached := by
  unfold DebugPump.addBreakpoint DebugPump.addHardwareBreakpoint
  split_ifs with detached
  · rfl
  · rfl
  · dsimp only
    split_ifs
    · rfl
    · rfl
    · split <;> rfl
  · dsimp only
    split_ifs
    · rfl
    · rfl
    · split <;> rfl
  · split
    · rfl
    · split_ifs
      · rfl
      · split
        · rfl
        · rename_i t written
          unfold writeByte at written
          split at written
          · contradiction
          · exact (congrArg Pump.attached (Except.ok.inj written)).symm

/-- A call of the pump that adds a breakpoint, or changes nothing. -/
theorem pumpAdd_cases :
    ((DebugPump.addBreakpoint access address label kind length s).2 = .ok () ∧
        s.attached = true ∧ s.breakpoints[address]? = none ∧
        ∃ info, (DebugPump.addBreakpoint access address label kind length s).1.breakpoints =
          s.breakpoints.insert address info) ∨
      ((DebugPump.addBreakpoint access address label kind length s).2 ≠ .ok () ∧
        (DebugPump.addBreakpoint access address label kind length s).1 = s) := by
  have adds := addBreakpoint_adds access address label kind length s
  have needs : (DebugPump.addBreakpoint access address label kind length s).2 = .ok () →
      s.attached = true := by
    intro added
    unfold DebugPump.addBreakpoint at added
    split at added
    · contradiction
    · rename_i attached
      simpa using attached
  generalize DebugPump.addBreakpoint access address label kind length s = ended at adds needs ⊢
  cases adds with
  | refused failure => exact .inr ⟨nofun, rfl⟩
  | software t info _ _ free table => exact .inl ⟨rfl, needs rfl, free, info, table⟩
  | hardware info slot _ _ _ _ _ _ free => exact .inl ⟨rfl, needs rfl, free, info, rfl⟩

theorem pumpRemove_attached :
    (DebugPump.removeBreakpoint access address s).1.attached = s.attached := by
  unfold DebugPump.removeBreakpoint
  split
  · rfl
  · split
    · rfl
    · split
      · rfl
      · dsimp only
        split
        · rfl
        · split
          · rfl
          · rename_i t written
            unfold writeByte at written
            split at written
            · contradiction
            · exact (congrArg Pump.attached (Except.ok.inj written)).symm

/-- A removal takes the address out of the table of an attached pump. -/
theorem pumpRemove_table (place : Nat) :
    (DebugPump.removeBreakpoint access address s).1.breakpoints[place]? =
      if s.attached = true ∧ place = address then none else s.breakpoints[place]? := by
  unfold DebugPump.removeBreakpoint
  split
  · rename_i detached
    rw [Bool.not_eq_true'] at detached
    simp [detached]
  · rename_i attached
    have attached_ : s.attached = true := by simpa using attached
    have erased : (s.breakpoints.erase address)[place]? =
        if s.attached = true ∧ place = address then none else s.breakpoints[place]? := by
      rw [Tables.getElem?_erase]
      simp [attached_]
    split
    · rename_i absent
      rw [← erased, Tables.getElem?_erase]
      split
      · rename_i here
        rw [here, absent]
      · rfl
    · split
      · exact erased
      · dsimp only
        split
        · exact erased
        · split
          · exact erased
          · rename_i t written
            unfold writeByte at written
            split at written
            · contradiction
            · rw [← Except.ok.inj written]
              exact erased

end Pump

/-- A new attachment starts with an empty table. -/
def tableOnAttach (s : RuntimeServices) (place : Nat) : Option BreakpointInfo :=
  if s.pump.attached then s.table[place]? else none

theorem attachDebugger_eq (opening : Opening) {s : RuntimeServices} (session : s.attached = true) :
    ∃ pump ended, attachDebugger opening s = ({ s with pump }, ended) ∧
      (ended = .ok () ↔ Opens opening s) ∧ (ended = .ok () → pump.attached = true) ∧
      ∀ place, pump.breakpoints[place]? = s.tableOnAttach place := by
  unfold attachDebugger
  rw [if_neg (by simp [session])]
  by_cases attached : s.pump.attached = true
  · rw [if_pos attached]
    refine ⟨s.pump, .ok (), rfl, iff_of_true rfl (.inl attached), fun _ => attached, ?_⟩
    intro place
    rw [tableOnAttach, if_pos attached, table]
  · rw [if_neg attached]
    have empty (pump : Pump) (cleared : pump.breakpoints = ∅) (place : Nat) :
        pump.breakpoints[place]? = s.tableOnAttach place := by
      rw [tableOnAttach, if_neg attached, cleared]
      exact TreeMap.getElem?_emptyc
    cases opening with
    | notOpened error code =>
        refine ⟨clear s.pump, .error _, rfl, iff_of_false nofun ?_, nofun, empty _ rfl⟩
        exact not_or.mpr ⟨attached, nofun⟩
    | notDebugged error code =>
        refine ⟨clear s.pump, .error _, rfl, iff_of_false nofun ?_, nofun, empty _ rfl⟩
        exact not_or.mpr ⟨attached, nofun⟩
    | debugging wow64 memory threads =>
        refine ⟨{ clear s.pump with attached := true, wow64, memory, threads }, .ok (), rfl,
          iff_of_true rfl (.inr ⟨_, _, _, rfl⟩), fun _ => rfl, empty _ rfl⟩

/-- The ways `startAccessWatch` ends. -/
inductive Starts (opening : Opening) (address length : Nat) (writesOnly : Bool)
    (s : RuntimeServices) : RuntimeServices × Result Unit → Prop
  | refused (failure : Failure) (unaccepted : ¬ Accepted address length s) :
      Starts opening address length writesOnly s (s, .error failure)
  | closed (failure : Failure) (pump : Pump) (accepted : Accepted address length s)
      (closed : ¬ Opens opening s)
      (table : ∀ place, pump.breakpoints[place]? = s.tableOnAttach place) :
      Starts opening address length writesOnly s ({ s with pump }, .error failure)
  | unarmed (failure : Failure) (pump : Pump) (accepted : Accepted address length s)
      (opens : Opens opening s) (attached : pump.attached = true)
      (table : ∀ place, pump.breakpoints[place]? = s.tableOnAttach place) :
      Starts opening address length writesOnly s
        ({ s with watch := (s.watch.start address length (watchKind writesOnly)).stop, pump },
          .error failure)
  | armed (pump : Pump) (info : BreakpointInfo) (accepted : Accepted address length s)
      (opens : Opens opening s) (attached : pump.attached = true)
      (free : s.tableOnAttach address = none)
      (table : ∀ place, pump.breakpoints[place]? =
        if place = address then some info else s.tableOnAttach place) :
      Starts opening address length writesOnly s
        ({ s with watch := s.watch.start address length (watchKind writesOnly), pump }, .ok ())

theorem startAccessWatch_starts (opening : Opening) (access : Access) (address length : Nat)
    (writesOnly : Bool) (s : RuntimeServices) :
    Starts opening address length writesOnly s
      (startAccessWatch opening access address length writesOnly s) := by
  unfold startAccessWatch
  split_ifs with detached invalid misaligned
  · exact .refused _ fun accepted => by simp [accepted.1] at detached
  · exact .refused _ fun accepted => by simp [accepted.2.1] at invalid
  · exact .refused _ fun accepted => by
      rw [accepted.2.2] at misaligned
      exact nomatch misaligned
  · have session : s.attached = true := by simpa using detached
    have accepted : Accepted address length s :=
      ⟨session, by simpa using invalid, by simpa using misaligned⟩
    obtain ⟨pump, ended, attaches, opens, attached, table⟩ := attachDebugger_eq opening session
    rw [attaches]
    cases ended with
    | error failure =>
        exact .closed failure pump accepted (fun there => nomatch opens.mpr there) table
    | ok done =>
        have there := attached rfl
        have again (watch : AccessWatch) : attachDebugger opening { s with watch, pump } =
            ({ s with watch, pump }, .ok ()) := by
          simp [attachDebugger, session, there]
        simp only [addBreakpoint, again]
        rcases pumpAdd_cases access address (watchLabel writesOnly address) (watchKind writesOnly)
          length pump with ⟨added, _, free, info, grown⟩ | ⟨refused, same⟩
        · have stays := pumpAdd_attached access address (watchLabel writesOnly address)
            (watchKind writesOnly) length pump
          generalize DebugPump.addBreakpoint access address (watchLabel writesOnly address)
            (watchKind writesOnly) length pump = result at added grown stays ⊢
          obtain ⟨fresh, ended⟩ := result
          subst added
          refine .armed fresh info accepted (opens.mp rfl) (stays.trans there) ?_ ?_
          · rw [← table, free]
          · intro place
            rw [show fresh.breakpoints = _ from grown, Tables.getElem?_insert, table]
        · generalize DebugPump.addBreakpoint access address (watchLabel writesOnly address)
            (watchKind writesOnly) length pump = result at refused same ⊢
          obtain ⟨fresh, ended⟩ := result
          cases ended with
          | ok done => exact absurd rfl refused
          | error failure =>
              rw [show fresh = pump from same]
              exact .unarmed failure pump accepted (opens.mp rfl) there table

/-- A failing start touches nothing: it fails before the watch is begun and the table is
cleared, or these are already as it leaves them. -/
def Untouched (opening : Opening) (address length : Nat) (writesOnly : Bool)
    (s : RuntimeServices) : Prop :=
  ¬ Accepted address length s ∨
    ((s.pump.attached = true ∨ ∀ place : Nat, s.table[place]? = none) ∧
      (¬ Opens opening s ∨
        s.watch = (s.watch.start address length (watchKind writesOnly)).stop))

/-- The table a failing start leaves is the old one. -/
theorem tableOnAttach_same (s : RuntimeServices) :
    (∀ place, s.tableOnAttach place = s.table[place]?) ↔
      (s.pump.attached = true ∨ ∀ place : Nat, s.table[place]? = none) := by
  unfold tableOnAttach
  by_cases attached : s.pump.attached = true
  · simp [attached]
  · simp only [attached, Bool.false_eq_true, if_false, false_or]
    exact forall_congr' fun place => eq_comm

/-- A start that fails leaves the watch and the table as they were exactly when it touches
neither. -/
theorem startAccessWatch_failure (opening : Opening) (access : Access) (address length : Nat)
    (writesOnly : Bool) (s : RuntimeServices)
    (failed : (startAccessWatch opening access address length writesOnly s).2 ≠ .ok ()) :
    ((startAccessWatch opening access address length writesOnly s).1.watch = s.watch ∧
        ∀ place : Nat,
          (startAccessWatch opening access address length writesOnly s).1.table[place]? =
            s.table[place]?) ↔
      Untouched opening address length writesOnly s := by
  have starts := startAccessWatch_starts opening access address length writesOnly s
  generalize startAccessWatch opening access address length writesOnly s = ended at starts failed ⊢
  rw [Untouched, ← tableOnAttach_same]
  cases starts with
  | refused failure unaccepted => exact iff_of_true ⟨rfl, fun _ => rfl⟩ (.inl unaccepted)
  | closed failure pump accepted closed same =>
      simp only [table, same, accepted, closed, not_true_eq_false, not_false_eq_true, true_or,
        and_true, false_or, true_and]
  | unarmed failure pump accepted opens attached same =>
      simp only [table, same, accepted, opens, not_true_eq_false, false_or]
      rw [and_comm, eq_comm]
  | armed pump info accepted opens attached free same => exact absurd rfl failed

/-- A watch that runs, and a breakpoint of the user elsewhere. -/
def busy : RuntimeServices :=
  { attached := true
    watch :=
      { active := true, watched := 0x2000, length := 4, totalHits := 1
        sites := [(0x401005, { address := 0x401000, hitCount := 1, trapAddress := 0x401005 })] }
    pump :=
      { memory := fun _ => 0
        breakpoints := ((∅ : TreeMap Nat BreakpointInfo).insert 0x1000 { address := 0x1000 }).insert
          0x2000 { address := 0x2000, kind := .hardwareWrite, length := 4, slot := some 0 } } }

theorem startAccessWatch_failure_misaligned :
    (startAccessWatch (.notOpened "" 0) {} 0x1001 4 true busy).1.watch = busy.watch ∧
      ∀ place : Nat, (startAccessWatch (.notOpened "" 0) {} 0x1001 4 true busy).1.table[place]? =
        busy.table[place]? :=
  (startAccessWatch_failure _ _ 0x1001 4 true busy (by decide +kernel)).mpr
    (.inl fun accepted => absurd accepted.2.2 (by decide))

theorem startAccessWatch_lost :
    (startAccessWatch (.notOpened "" 0) {} 0x1000 4 true busy).2 ≠ .ok () ∧
      (startAccessWatch (.notOpened "" 0) {} 0x1000 4 true busy).1.watch ≠ busy.watch := by
  decide +kernel

end RuntimeServices

end PointerLab
