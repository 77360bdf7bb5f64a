import PointerLab.DebugPump

set_option autoImplicit false

/- The pump's thread from attach to detach: the loop, the way out of it, and the calls
of other threads that land in between. The lock is free between any two steps. -/
namespace PointerLab.DebugPump

open Domain Std

/-- Where the pump's thread is. -/
inductive Phase
  | looping
  /-- Out of the loop, nothing disarmed yet. -/
  | leaving
  /-- Flushing the events that are already queued. -/
  | draining
  /-- The events are flushed, or the target is gone. -/
  | lettingGo
  /-- `run` has returned. -/
  | detached
  /-- `detach` has returned. -/
  | cleared
  deriving DecidableEq, Repr

/-- How an exception is continued. -/
inductive ContinueStatus
  | dbgContinue
  | dbgExceptionNotHandled
  deriving DecidableEq, Repr

structure Session where
  pump : Pump
  phase : Phase := .looping
  sawInitialBreakpoint : Bool := false
  targetExited : Bool := false
  /-- The debug control each thread came with. -/
  ownControl : Nat → BitVec 64 := fun _ => 0

/-- One entry of `disarmAll`. -/
def disarmEntry (access : Access) (write : Nat → Option Failure) (s : Pump) :
    Nat × BreakpointInfo → Pump
  | (address, info) =>
      if isHardware info.kind then s
      else
        let s :=
          if steppingOver address s then s
          else
            match writeByte { access with write := write address } address info.originalByte s with
            | .ok s => s
            | .error _ => s
        { s with disarmed := s.disarmed.insert address }

/-- `disarmAll`; `write` is how the write of each original byte ends. -/
def disarmAll (access : Access) (write : Nat → Option Failure) (s : Pump) : Pump :=
  let hadHardware := anyHardwareArmed s
  let s := s.breakpoints.toList.foldl (disarmEntry access write) s
  let s := { s with breakpoints := ∅ }
  if hadHardware then applyDebugRegistersToAllThreads access s else s

/-- `EXIT_PROCESS_DEBUG_EVENT` in the loop. -/
def forgetTarget (s : Pump) : Pump := { s with breakpoints := ∅, stepping := ∅ }

/-- The end of `run`. -/
def finish (s : Pump) : Pump := { s with stepping := ∅, disarmed := ∅, attached := false }

/-- The end of `detach`. -/
def clear (s : Pump) : Pump := { s with breakpoints := ∅, stepping := ∅, hardwareUsed := false }

/-- How the loop or the drain continues a breakpoint exception. -/
def breakpointStatus (handled : Bool) (s : Session) : ContinueStatus :=
  if handled then .dbgContinue
  else if s.phase = .looping && !s.sawInitialBreakpoint then .dbgContinue
  else .dbgExceptionNotHandled

/-- What happens next: a critical section of the pump, or a move of its thread. -/
inductive Move
  | pump (event : Event)
  | leave
  | exitProcess
  | disarm (access : Access) (write : Nat → Option Failure)
  | drained
  | finish
  | clear

/-- Whether debug events are being received. -/
def Session.receiving (s : Session) : Bool := s.phase = .looping || s.phase = .draining

namespace Session

def withPump (pump : Pump) (s : Session) : Session := { s with pump }

/-- A debug event, or a call from another thread. -/
def stepPump (s : Session) : Event → Session
  | .addBreakpoint address label kind length access =>
      s.withPump (addBreakpoint access address label kind length s.pump).1
  | .removeBreakpoint address access => s.withPump (removeBreakpoint access address s.pump).1
  | .breakpoint address threadId cpu access =>
      if s.receiving then
        let (pump, handled) := handleBreakpoint access cpu address threadId s.pump
        { s with
          pump
          sawInitialBreakpoint :=
            s.sawInitialBreakpoint || (s.phase = .looping && !handled.handled) }
      else s
  | .singleStep threadId cpu access =>
      if s.receiving then s.withPump (handleSingleStep access cpu threadId s.pump).1 else s
  | .threadExit threadId access =>
      if s.receiving then s.withPump (handleThreadExit access threadId s.pump) else s
  | .threadCreate threadId context access =>
      let own := fun thread => if thread = threadId then context.debugControl else s.ownControl thread
      if s.phase = .looping then
        { s with pump := handleThreadCreate access threadId context s.pump, ownControl := own }
      else
        -- Outside the loop nobody programs a new thread.
        { s with
          pump := { s.pump with threads := s.pump.threads.insert threadId context }
          ownControl := own }

def step (s : Session) : Move → Session
  | .pump event => s.stepPump event
  | .leave => if s.phase = .looping then { s with phase := .leaving } else s
  | .exitProcess =>
      if s.phase = .looping then
        { s with pump := forgetTarget s.pump, targetExited := true, phase := .leaving }
      else if s.phase = .draining then { s with targetExited := true, phase := .lettingGo }
      else s
  | .disarm access write =>
      if s.phase = .leaving then
        { s with
          pump := disarmAll access write s.pump
          phase := if s.targetExited then .lettingGo else .draining }
      else s
  | .drained => if s.phase = .draining then { s with phase := .lettingGo } else s
  | .finish =>
      if s.phase = .lettingGo then { s with pump := DebugPump.finish s.pump, phase := .detached }
      else s
  | .clear =>
      if s.phase = .detached then { s with pump := DebugPump.clear s.pump, phase := .cleared } else s

end Session

end PointerLab.DebugPump
