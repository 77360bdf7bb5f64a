import Std.Data.TreeMap
import Std.Data.TreeSet
import PointerLab.Domain

set_option autoImplicit false

/- `platform_win32/Win32Platform.cpp`, the debug-event pump: the breakpoint table,
the user calls that edit it and the debug events that interleave with them. Every
handler runs under `mutex_`, so one handler is one step. -/
namespace PointerLab.DebugPump

open Domain Std

def int3 : UInt8 := 0xCC

/-- EFLAGS.TF. -/
def trapFlag : BitVec 32 := 0x100

/-- EFLAGS.RF. -/
def resumeFlag : BitVec 32 := 0x10000

/-- DR6 bits 0-3. -/
def debugStatusMask : BitVec 64 := 0xF

def readWriteBits : BreakpointKind → BitVec 64
  | .hardwareWrite => 0b01
  | .hardwareReadWrite => 0b11
  | .hardwareExecute => 0b00
  | .software => 0b00

/-- Eight bytes are `0b10`, out of numeric order. -/
def lengthBits : Nat → BitVec 64
  | 2 => 0b01
  | 8 => 0b10
  | 4 => 0b11
  | _ => 0b00

/-- One thread's registers, in the shape the target's width needs. -/
structure ThreadContext where
  registers : Registers := {}
  eflags : BitVec 32 := 0
  debugAddress : Fin 4 → Nat := fun _ => 0
  debugStatus : BitVec 64 := 0
  debugControl : BitVec 64 := 0

namespace ThreadContext

/-- A WOW64 context holds 32-bit registers. -/
def narrowed (wow64 : Bool) (value : Nat) : Nat := if wow64 then value % 0x100000000 else value

def setInstructionPointer (wow64 : Bool) (value : Nat) (context : ThreadContext) : ThreadContext :=
  { context with registers := { context.registers with rip := narrowed wow64 value } }

def orFlags (bits : BitVec 32) (context : ThreadContext) : ThreadContext :=
  { context with eflags := context.eflags ||| bits }

def clearDebugStatus (context : ThreadContext) : ThreadContext :=
  { context with debugStatus := 0 }

def programDebugRegisters (wow64 : Bool) (addresses : Fin 4 → Nat) (control : BitVec 64)
    (context : ThreadContext) : ThreadContext :=
  { context with
    debugAddress := fun slot => narrowed wow64 (addresses slot)
    debugStatus := 0
    debugControl := if wow64 then control &&& 0xFFFFFFFF else control }

/-- What the table keeps of a context. A 32-bit thread has no `r8` to `r15`. -/
def capture (wow64 : Bool) (threadId : Nat) (context : ThreadContext) : RegisterContext :=
  let r := context.registers
  { registers :=
      if wow64 then
        { rip := r.rip, rsp := r.rsp, rbp := r.rbp, rax := r.rax, rbx := r.rbx, rcx := r.rcx,
          rdx := r.rdx, rsi := r.rsi, rdi := r.rdi }
      else r
    eflags := context.eflags
    threadId := threadId
    captured := true
    bitness := if wow64 then .x86 else .x64 }

end ThreadContext

/-- How the calls one step makes into the system end. `none` is success. -/
structure Access where
  read : Option Failure := none
  write : Option Failure := none
  openThread : Bool := true
  getContext : Bool := true
  setContext : Bool := true
  /-- Whether a thread could be opened and its debug registers programmed. -/
  program : Nat → Bool := fun _ => true

/-- The registers a thread stops with, before the pump touches them. -/
structure Cpu where
  registers : Registers := {}
  eflags : BitVec 32 := 0
  debugStatus : BitVec 64 := 0

/-- The pump's members and the target they act on. -/
structure Pump where
  attached : Bool := true
  wow64 : Bool := false
  breakpoints : TreeMap Nat BreakpointInfo := ∅
  /-- Threads stepping over a restored breakpoint, and which one. -/
  stepping : TreeMap Nat Nat := ∅
  /-- Addresses whose original byte is back but whose trap may still be in flight. -/
  disarmed : TreeSet Nat := ∅
  hardwareUsed : Bool := false
  memory : Nat → UInt8
  threads : TreeMap Nat ThreadContext := ∅

/-- `readByte`. -/
def readByte (access : Access) (address : Nat) (s : Pump) : Result UInt8 :=
  match access.read with
  | some failure => .error failure
  | none => .ok (s.memory address)

/-- `writeByte`. A failed write leaves the byte as it was. -/
def writeByte (access : Access) (address : Nat) (value : UInt8) (s : Pump) : Result Pump :=
  match access.write with
  | some failure => .error failure
  | none => .ok { s with memory := fun place => if place = address then value else s.memory place }

/-- The context of a stopped thread: its registers as the CPU left them, its debug
registers as last programmed. -/
def contextOf (threadId : Nat) (cpu : Cpu) (s : Pump) : ThreadContext :=
  { s.threads[threadId]?.getD {} with
    registers := cpu.registers, eflags := cpu.eflags, debugStatus := cpu.debugStatus }

/-- A successful `ThreadContext::set`. -/
def setContext (threadId : Nat) (context : ThreadContext) (s : Pump) : Pump :=
  { s with threads := s.threads.insert threadId context }

def anyHardwareArmed (s : Pump) : Bool :=
  s.breakpoints.toList.any fun (_, info) => isHardware info.kind && info.enabled

/-- The first debug register no hardware entry occupies. -/
def freeDebugSlot (s : Pump) : Option (Fin 4) :=
  (List.finRange 4).find? fun slot =>
    !s.breakpoints.toList.any fun (_, info) => isHardware info.kind && info.slot == some slot

/-- DR0-DR3 and DR7 as the table wants them. -/
def debugRegisters (s : Pump) : (Fin 4 → Nat) × BitVec 64 :=
  s.breakpoints.toList.foldl
    (fun (addresses, control) (address, info) =>
      match info.slot with
      | none => (addresses, control)
      | some slot =>
          if isHardware info.kind && info.enabled then
            (fun other => if other = slot then address else addresses other,
              control ||| 1 <<< (slot.val * 2) ||| readWriteBits info.kind <<< (16 + slot.val * 4) |||
                lengthBits info.length <<< (18 + slot.val * 4))
          else (addresses, control))
    (fun _ => 0, 0)

/-- `writeDebugRegisters` on one thread. -/
def writeDebugRegisters (s : Pump) (context : ThreadContext) : ThreadContext :=
  let (addresses, control) := debugRegisters s
  context.programDebugRegisters s.wow64 addresses control

def applyDebugRegistersToAllThreads (access : Access) (s : Pump) : Pump :=
  { s with threads := s.threads.map fun threadId context =>
      if access.program threadId then writeDebugRegisters s context else context }

def steppingOver (address : Nat) (s : Pump) : Bool :=
  s.stepping.toList.any fun (_, target) => target == address

/-- `rearmLocked`: the trap goes back if the table still has an enabled entry. -/
def rearm (access : Access) (address : Nat) (s : Pump) : Pump :=
  match s.breakpoints[address]? with
  | none => s
  | some entry =>
      if !entry.enabled then s
      else
        match writeByte access address int3 s with
        | .ok armed => armed
        | .error _ => { s with breakpoints := s.breakpoints.erase address }

/-- `rewindThread`. -/
def rewindThread (access : Access) (cpu : Cpu) (address threadId : Nat) (s : Pump) : Pump :=
  if access.openThread && access.getContext && access.setContext then
    setContext threadId ((contextOf threadId cpu s).setInstructionPointer s.wow64 address) s
  else s

/-- Whether a debug exception was the pump's own, and the hit it reports. -/
structure Handled where
  handled : Bool
  onHit : Option BreakpointInfo := none

def handleBreakpoint (access : Access) (cpu : Cpu) (address threadId : Nat) (s : Pump) :
    Pump × Handled :=
  match s.breakpoints[address]? with
  | none => stale
  | some entry =>
      if !entry.enabled then stale
      else if !(access.openThread && access.getContext) then (s, ⟨true, none⟩)
      else
        let context := (contextOf threadId cpu s).setInstructionPointer s.wow64 address
        let captured := { entry with lastHit := context.capture s.wow64 threadId }
        let s := { s with breakpoints := s.breakpoints.insert address captured }
        match writeByte access address entry.originalByte s with
        | .error _ => (s, ⟨true, none⟩)
        | .ok s =>
            if !access.setContext then
              -- The original byte stays in place and the breakpoint stops working.
              ({ s with
                  disarmed := s.disarmed.insert address
                  breakpoints := s.breakpoints.erase address }, ⟨true, none⟩)
            else
              let s := setContext threadId (context.orFlags trapFlag) s
              let hit := { captured with hitCount := bump captured.hitCount }
              ({ s with
                  stepping := s.stepping.insert threadId address
                  breakpoints := s.breakpoints.insert address hit }, ⟨true, some hit⟩)
where
  /-- A trap of a breakpoint that is gone is still the pump's to swallow. -/
  stale : Pump × Handled :=
    if s.disarmed.contains address then (rewindThread access cpu address threadId s, ⟨true, none⟩)
    else (s, ⟨false, none⟩)

inductive HardwareVerdict
  | notOurs
  | stale
  | hit
  deriving DecidableEq

/-- The first enabled hardware entry, in address order, whose DR6 bit is set. -/
def firedEntry (fired : BitVec 64) (s : Pump) : Option (Nat × BreakpointInfo) :=
  s.breakpoints.toList.find? fun (_, info) =>
    isHardware info.kind && info.enabled &&
      match info.slot with
      | none => false
      | some slot => fired &&& (1 <<< slot.val) != 0

def handleHardwareHit (access : Access) (cpu : Cpu) (threadId : Nat) (s : Pump) :
    Pump × HardwareVerdict × Option BreakpointInfo :=
  if !(access.openThread && access.getContext) then (s, .notOurs, none)
  else
    let context := contextOf threadId cpu s
    let fired := context.debugStatus &&& debugStatusMask
    if fired == 0 then (s, .notOurs, none)
    else
      match firedEntry fired s with
      | none =>
          let s := if access.setContext then setContext threadId context.clearDebugStatus s else s
          (s, .stale, none)
      | some (address, info) =>
          let hit := { info with
            lastHit := context.capture s.wow64 threadId, hitCount := bump info.hitCount }
          let s := { s with breakpoints := s.breakpoints.insert address hit }
          let context := context.clearDebugStatus
          let context :=
            if hit.kind = .hardwareExecute then context.orFlags resumeFlag else context
          let s := if access.setContext then setContext threadId context s else s
          (s, .hit, some hit)

/-- `handleSoftwareStep`: the stepping thread has executed the original instruction. -/
def handleSoftwareStep (access : Access) (threadId : Nat) (s : Pump) : Pump × Bool :=
  match s.stepping[threadId]? with
  | none => (s, false)
  | some address => (rearm access address { s with stepping := s.stepping.erase threadId }, true)

def handleSingleStep (access : Access) (cpu : Cpu) (threadId : Nat) (s : Pump) : Pump × Handled :=
  let (s, verdict, snapshot) :=
    if s.hardwareUsed then handleHardwareHit access cpu threadId s else (s, .notOurs, none)
  let (s, stepped) := handleSoftwareStep access threadId s
  -- Once debug registers were used, an unclaimed step may be a trap of theirs.
  (s, ⟨verdict != .notOurs || stepped || s.hardwareUsed, if verdict = .hit then snapshot else none⟩)

/-- A thread that dies in mid-step will never raise the step that re-arms. -/
def handleThreadExit (access : Access) (threadId : Nat) (s : Pump) : Pump :=
  match s.stepping[threadId]? with
  | none => s
  | some address =>
      let s := { s with stepping := s.stepping.erase threadId }
      if steppingOver address s then s else rearm access address s

/-- `CREATE_THREAD_DEBUG_EVENT`: a new thread starts with no debug registers. -/
def handleThreadCreate (access : Access) (threadId : Nat) (context : ThreadContext) (s : Pump) :
    Pump :=
  let s := { s with threads := s.threads.insert threadId context }
  if anyHardwareArmed s && access.program threadId then
    { s with threads := s.threads.insert threadId (writeDebugRegisters s context) }
  else s

def addHardwareBreakpoint (access : Access) (address : Nat) (label : String)
    (kind : BreakpointKind) (length : Nat) (s : Pump) : Pump × Result Unit :=
  -- An execute breakpoint traps a fetch, which is one byte wide.
  let length := if kind = .hardwareExecute then 1 else length
  if !isValidWatchLength length then
    (s, fail s!"A hardware breakpoint can watch 1, 2, 4 or 8 bytes, not {length}.")
  else if address % length ≠ 0 then
    (s, fail (s!"A {length}-byte hardware breakpoint must watch an {length}-byte aligned address, and "
      ++ hexString address ++ " is not."))
  else
    match freeDebugSlot s with
    | none => (s, fail ("All four debug registers are in use. The processor provides exactly four "
        ++ "hardware breakpoints; remove one, or use a software breakpoint instead."))
    | some slot =>
        let info := { address, label, kind, length, enabled := true, slot := some slot }
        let s := { s with breakpoints := s.breakpoints.insert address info, hardwareUsed := true }
        (applyDebugRegistersToAllThreads access s, .ok ())

def addBreakpoint (access : Access) (address : Nat) (label : String) (kind : BreakpointKind)
    (length : Nat) (s : Pump) : Pump × Result Unit :=
  if !s.attached then (s, fail "The debugger is not attached.")
  else if s.breakpoints.contains address then
    (s, fail ("There is already a breakpoint at " ++ hexString address ++ "."))
  else if isHardware kind then addHardwareBreakpoint access address label kind length s
  else
    match readByte access address s with
    | .error failure =>
        (s, fail ("Could not read the target byte: " ++ failure.message) failure.code)
    | .ok original =>
        if original = int3 then
          -- Saving 0xCC as the original would leave a permanent int3 behind.
          (s, fail ("There is already an int3 at " ++ hexString address
            ++ "; Pointer Lab will not stack a breakpoint on top of it."))
        else
          match writeByte access address int3 s with
          | .error failure =>
              (s, fail ("Could not arm the breakpoint: " ++ failure.message) failure.code)
          | .ok s =>
              let info := { address, originalByte := original, enabled := true, label }
              ({ s with
                  disarmed := s.disarmed.erase address
                  breakpoints := s.breakpoints.insert address info }, .ok ())

def removeBreakpoint (access : Access) (address : Nat) (s : Pump) : Pump × Result Unit :=
  if !s.attached then (s, fail "The debugger is not attached.")
  else
    match s.breakpoints[address]? with
    | none => (s, fail ("There is no breakpoint at " ++ hexString address ++ "."))
    | some entry =>
        if isHardware entry.kind then
          let s := { s with breakpoints := s.breakpoints.erase address }
          (applyDebugRegistersToAllThreads access s, .ok ())
        else
          let midStep := steppingOver address s
          let s := { s with
            breakpoints := s.breakpoints.erase address
            disarmed := s.disarmed.insert address }
          -- A thread stepping over it is taken to have the original byte back already.
          if midStep then (s, .ok ())
          else
            match writeByte access address entry.originalByte s with
            | .error failure =>
                (s, fail ("The breakpoint was removed but the original byte could not be written "
                  ++ "back, so the target still contains an int3: " ++ failure.message) failure.code)
            | .ok s => (s, .ok ())

/-- One critical section of the pump: a user call or a debug event. -/
inductive Event
  | addBreakpoint (address : Nat) (label : String) (kind : BreakpointKind) (length : Nat)
      (access : Access)
  | removeBreakpoint (address : Nat) (access : Access)
  | breakpoint (address threadId : Nat) (cpu : Cpu) (access : Access)
  | singleStep (threadId : Nat) (cpu : Cpu) (access : Access)
  | threadExit (threadId : Nat) (access : Access)
  | threadCreate (threadId : Nat) (context : ThreadContext) (access : Access)

def Event.access : Event → Access
  | .addBreakpoint _ _ _ _ access => access
  | .removeBreakpoint _ access => access
  | .breakpoint _ _ _ access => access
  | .singleStep _ _ access => access
  | .threadExit _ access => access
  | .threadCreate _ _ access => access

def step (s : Pump) : Event → Pump
  | .addBreakpoint address label kind length access =>
      (addBreakpoint access address label kind length s).1
  | .removeBreakpoint address access => (removeBreakpoint access address s).1
  | .breakpoint address threadId cpu access => (handleBreakpoint access cpu address threadId s).1
  | .singleStep threadId cpu access => (handleSingleStep access cpu threadId s).1
  | .threadExit threadId access => handleThreadExit access threadId s
  | .threadCreate threadId context access => handleThreadCreate access threadId context s

end PointerLab.DebugPump
