import PointerLab.Domain
import PointerLab.Runs
import PointerLab.Tables

set_option autoImplicit false

/- `Injector::loadLibrary` over `Win32Platform::injectLoadLibraryW` and `createRemoteThread`. Calls
of several threads go on side by side, and beside them run the remote threads that they have
started and everything else that happens in the targets. Each event is one answer of the system to
one call, or one step of a target. -/
namespace PointerLab.Injector

open Domain Std

/-- A C string of a path: what comes before the first null. -/
def cString (path : WideText) : WideText := path.takeWhile (· ≠ 0)

/-- `dllPath.c_str()` and its null, as `writeMemory` is given them. -/
def pathBytes (path : WideText) : List UInt8 :=
  (path ++ [0]).flatMap fun unit : UInt16 =>
    [UInt8.ofNat unit.toNat, UInt8.ofNat (unit.toNat / 0x100)]

/-- `VirtualAllocEx` gives whole pages. -/
def blockSize (path : WideText) : Nat := ((path.length + 1) * 2 + 0xFFF) / 0x1000 * 0x1000

inductive Reading
  | going
  | whole
  | faulted
  deriving DecidableEq

/-- A remote thread that runs `LoadLibraryW`. -/
structure Thread where
  start : Nat
  parameter : Nat
  /-- What it has read of its path. -/
  read : WideText := []
  reading : Reading := .going
  /-- Its exit code, once it has ended. -/
  exit : Option Nat := none

/-- A process that libraries are loaded into. A handle keeps it when it has ended. -/
structure Target where
  alive : Bool := true
  wow64 : Bool := false
  /-- The bytes that are mapped. -/
  memory : Nat → Option UInt8 := fun _ => none

/-- Pointer Lab's own process: its `kernel32.dll`, and `LoadLibraryW` in there. A failure is a
last error. -/
structure Own where
  kernel32 : Except Nat Nat
  loadLibraryW : Except Nat Nat
  formatLastError : Nat → String

/-- Where a call stands: what it asks of the system next. -/
inductive Stage
  /-- `resolver.resolve` looks for `LoadLibraryW` in the target. -/
  | resolving
  | allocating (start : Nat)
  | writing (start base : Nat)
  /-- The buffer goes again, since the path could not be written. -/
  | abandoning (base : Nat) (failure : Failure)
  | starting (start base : Nat)
  | waiting (base : Nat)
  /-- The thread has ended, and is asked for its exit code. -/
  | exited (base : Nat)
  | releasing (base code : Nat)
  | returned

/-- The buffer that a call has between its `allocate` and its return. -/
def Stage.buffer : Stage → Option Nat
  | .writing _ base | .abandoning base _ | .starting _ base | .waiting base | .exited base
  | .releasing base _ => some base
  | _ => none

/-- A call with its duplicate of the process handle. -/
structure Injection where
  process : Nat
  dllPath : WideText
  stage : Stage := .resolving
  /-- What was resolved in the target, or 0. -/
  loadLibrary : Nat := 0
  thread : Option Thread := none

structure Shared where
  /-- The process that the session is attached to. -/
  session : Option Nat
  targets : Nat → Target
  calls : TreeMap Nat Injection := ∅
  replies : List (Nat × Result Nat) := []
  log : List String := []

/-- How the system answers. -/
inductive Answer
  | succeeds
  | resolves (address : Nat)
  | allocates (base : Nat)
  | timesOut
  /-- Fails with a last error. -/
  | fails (error : Nat)
  /-- Fails, and `count` bytes have been written before. -/
  | stops (count : Nat) (failure : Failure)

inductive Next
  | goes (stage : Stage)
  | returns (reply : Result Nat)

def settle (call : Nat) (injection : Injection) (s : Shared) : Next → Shared
  | .goes stage => { s with calls := s.calls.insert call { injection with stage } }
  | .returns reply =>
      { s with
        calls := s.calls.insert call { injection with stage := .returned }
        replies := s.replies ++ [(call, reply)] }

def warn (message : String) (s : Shared) : Shared := { s with log := s.log ++ [message] }

/-- There is no memory left of a process that has ended. -/
def remember (process : Nat) (memory : Nat → Option UInt8) (s : Shared) : Shared :=
  if (s.targets process).alive then
    { s with targets := Function.update s.targets process { s.targets process with memory } }
  else s

/-- Fresh pages, zeroed. -/
def mapped (base size : Nat) (memory : Nat → Option UInt8) : Nat → Option UInt8 := fun address =>
  if base ≤ address ∧ address < base + size then some 0 else memory address

def unmapped (base size : Nat) (memory : Nat → Option UInt8) : Nat → Option UInt8 := fun address =>
  if base ≤ address ∧ address < base + size then none else memory address

/-- Bytes where they find something mapped. -/
def written (base : Nat) (bytes : List UInt8) (memory : Nat → Option UInt8) :
    Nat → Option UInt8 := fun address =>
  if base ≤ address then
    match bytes[address - base]? with
    | some byte => (memory address).map fun _ => byte
    | none => memory address
  else memory address

/-- The start of `injectLoadLibraryW`: which `LoadLibraryW` the thread is to run. -/
def startAddress (own : Own) (wow64 : Bool) (loadLibraryAddress : Nat) : Result Nat :=
  if loadLibraryAddress = 0 then
    if wow64 then
      fail ("The target is a 32-bit process and its LoadLibraryW address could not be resolved. " ++
        "Injecting this process's own address would send the remote thread into unmapped memory.")
    else
      match own.kernel32 with
      | .error error => fail "Could not locate kernel32.dll." error
      | .ok _ =>
          match own.loadLibraryW with
          | .error error => fail "Could not resolve LoadLibraryW." error
          | .ok address => .ok address
  else .ok loadLibraryAddress

def injectLoadLibraryW (own : Own) (wow64 : Bool) (dllPath : WideText)
    (loadLibraryAddress : Nat) : Next :=
  if dllPath.isEmpty then .returns (fail "No DLL path was given.")
  else
    match startAddress own wow64 loadLibraryAddress with
    | .error failure => .returns (.error failure)
    | .ok start => .goes (.allocating start)

/-- `free` of the path buffer, which only reports when it fails. -/
def release (own : Own) (injection : Injection) (base : Nat) (s : Shared) : Answer → Option Shared
  | .succeeds =>
      some (remember injection.process
        (unmapped base (blockSize injection.dllPath) (s.targets injection.process).memory) s)
  | .fails error =>
      some (warn ("Could not release the remote path buffer: " ++ own.formatLastError error) s)
  | _ => none

/-- The thread did not complete, so the path buffer stays. -/
def leak (base : Nat) (s : Shared) : Shared :=
  warn ("Leaving the remote path buffer at " ++ hexString base ++
    " allocated because the injection thread did not complete; freeing it could crash the target.")
    s

def timeoutMs : Nat := 5000

def waitTimeout : Nat := 258

/-- The exit code of a thread that has ended. -/
def Thread.ended : Option Thread → Option Nat
  | some thread => thread.exit
  | none => none

section Steps

variable (own : Own)

/-- A call goes on with an answer. Where the system cannot answer so, nothing happens. -/
def advance (call : Nat) (injection : Injection) (s : Shared) : Stage → Answer → Shared
  | .resolving, .resolves address =>
      settle call { injection with loadLibrary := address } s
        (injectLoadLibraryW own (s.targets injection.process).wow64 injection.dllPath address)
  | .resolving, .stops _ failure =>
      settle call { injection with loadLibrary := 0 }
        (warn ("Could not resolve LoadLibraryW in the target (" ++ failure.message ++
          "). Falling back to this process's own address.") s)
        (injectLoadLibraryW own (s.targets injection.process).wow64 injection.dllPath 0)
  | .allocating start, .allocates base =>
      let target := s.targets injection.process
      if target.alive ∧ ∀ offset < blockSize injection.dllPath,
          target.memory (base + offset) = none then
        settle call injection
          (remember injection.process (mapped base (blockSize injection.dllPath) target.memory) s)
          (.goes (.writing start base))
      else s
  | .allocating _, .fails error =>
      settle call injection s (.returns (fail (own.formatLastError error)))
  | .writing start base, .succeeds =>
      let target := s.targets injection.process
      if target.alive then
        settle call injection
          (remember injection.process (written base (pathBytes injection.dllPath) target.memory) s)
          (.goes (.starting start base))
      else s
  | .writing _ base, .stops count failure =>
      let target := s.targets injection.process
      settle call injection
        (remember injection.process
          (written base ((pathBytes injection.dllPath).take count) target.memory) s)
        (.goes (.abandoning base failure))
  | .abandoning base failure, answer =>
      match release own injection base s answer with
      | some s => settle call injection s (.returns (.error failure))
      | none => s
  | .starting start base, .succeeds =>
      if (s.targets injection.process).alive then
        settle call { injection with thread := some { start, parameter := base } } s
          (.goes (.waiting base))
      else s
  | .starting _ base, .fails error =>
      settle call injection (leak base s)
        (.returns (fail (own.formatLastError error) error))
  | .waiting base, .succeeds =>
      if (Thread.ended injection.thread).isSome then
        settle call injection s (.goes (.exited base))
      else s
  | .waiting base, .timesOut =>
      settle call injection (leak base s)
        (.returns (fail ("The remote thread did not finish within " ++ toString timeoutMs ++
          " ms and is still running.") waitTimeout))
  | .waiting base, .fails error =>
      settle call injection (leak base s)
        (.returns (fail ("Waiting on the remote thread failed: " ++ own.formatLastError error)
          error))
  | .exited base, .succeeds =>
      match Thread.ended injection.thread with
      | some code => settle call injection s (.goes (.releasing base code))
      | none => s
  | .exited base, .fails error =>
      settle call injection (leak base s)
        (.returns (fail (own.formatLastError error) error))
  | .releasing base code, answer =>
      match release own injection base s answer with
      | some s => settle call injection s (.returns (.ok code))
      | none => s
  | _, _ => s

inductive Event
  /-- A call begins, and its `DuplicateHandle` succeeds or fails. -/
  | begin (call : Nat) (dllPath : WideText) (duplicated : Except Nat Unit)
  | resume (call : Nat) (answer : Answer)
  /-- The session is attached to another process, or detached. -/
  | session (process : Option Nat)
  /-- The remote thread of a call reads on in its path. -/
  | reads (call : Nat)
  /-- The remote thread of a call ends: `LoadLibraryW` has returned, or it was made to. -/
  | exits (call code : Nat)
  | ends (process code : Nat)
  /-- What else writes to the memory of a process, maps or unmaps it. -/
  | changes (process : Nat) (memory : Nat → Option UInt8)

/-- `TargetSession::duplicateHandle`. -/
def duplicateHandle (session : Option Nat) (duplicated : Except Nat Unit) : Result Nat :=
  match session with
  | none => fail "No target process attached."
  | some process =>
      match duplicated with
      | .error error =>
          fail ("Could not duplicate the process handle: " ++ own.formatLastError error) error
      | .ok () => .ok process

/-- The wide character at an address, if both of its bytes are mapped. -/
def unitAt (memory : Nat → Option UInt8) (address : Nat) : Option UInt16 :=
  match memory address, memory (address + 1) with
  | some low, some high => some (UInt16.ofNat (low.toNat + 0x100 * high.toNat))
  | _, _ => none

/-- `LoadLibraryW` looks at the next character of its parameter. -/
def Thread.reads (memory : Nat → Option UInt8) (thread : Thread) : Thread :=
  if thread.exit.isSome ∨ thread.reading ≠ .going then thread
  else
    match unitAt memory (thread.parameter + 2 * thread.read.length) with
    | none => { thread with reading := .faulted }
    | some unit =>
        if unit = 0 then { thread with reading := .whole }
        else { thread with read := thread.read ++ [unit] }

def Thread.exits (code : Nat) (thread : Thread) : Thread :=
  if thread.exit.isSome then thread else { thread with exit := some code }

/-- The remote thread of a call takes a step. -/
def onThread (call : Nat) (act : Injection → Thread → Thread) (s : Shared) : Shared :=
  match s.calls[call]? with
  | none => s
  | some injection =>
      { s with
        calls := s.calls.insert call
          { injection with thread := injection.thread.map (act injection) } }

/-- A process ends, and its threads with it. -/
def ends (process code : Nat) (s : Shared) : Shared :=
  { s with
    targets := Function.update s.targets process
      { s.targets process with alive := false, memory := fun _ => none }
    calls := s.calls.map fun _ injection =>
      if injection.process = process then
        { injection with thread := injection.thread.map (Thread.exits code) }
      else injection }

def step (s : Shared) : Event → Shared
  | .begin call dllPath duplicated =>
      if s.calls[call]?.isSome then s
      else
        match duplicateHandle own s.session duplicated with
        | .error failure => { s with replies := s.replies ++ [(call, .error failure)] }
        | .ok process => { s with calls := s.calls.insert call { process, dllPath } }
  | .resume call answer =>
      match s.calls[call]? with
      | none => s
      | some injection => advance own call injection s injection.stage answer
  | .session process => { s with session := process }
  | .reads call =>
      onThread call (fun injection => Thread.reads (s.targets injection.process).memory) s
  | .exits call code => onThread call (fun _ => Thread.exits code) s
  | .ends process code => ends process code s
  | .changes process memory => remember process memory s

end Steps

end PointerLab.Injector
