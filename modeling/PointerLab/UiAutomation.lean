import Mathlib.Data.List.Perm.Basic
import Mathlib.Logic.Function.Basic
import PointerLab.Domain
import PointerLab.Runs

set_option autoImplicit false

/- `ui/UiAutomation.cpp`: requests that other threads queue for the UI thread and wait for.
A submitter may give up while the UI thread takes its request, runs it or puts it back. -/
namespace PointerLab.UiAutomation

open Domain

inductive Kind where
  | screenshot
  | selectPanel
  | setLayout
  | setWindowSize
  | waitFrames
  | quit
  | invoke
deriving DecidableEq

/-- The fields of `AutomationRequest` that the queue looks at. -/
structure Request where
  kind : Kind
  /-- The frames a `waitFrames` request still has to wait. -/
  first : Int
  taken : Bool := false
  finished : Bool := false
  ok : Bool := true
  error : String := ""
deriving DecidableEq

/-- What `submitRequest` returns. -/
inductive Reply where
  | success
  | failed (error : String)
  | timedOut
  | refused
deriving DecidableEq

def Reply.result : Reply → Result Unit
  | .success => .ok ()
  | .failed error => fail error
  | .timedOut => fail "The window did not respond within 20 seconds."
  | .refused => fail "A window request cannot be made from the UI thread itself."

inductive Caller where
  | absent
  /-- Waits until the request is finished or the time is over. -/
  | waiting
  /-- The time was over, but the request was in hand: waits without a limit. -/
  | keepsWaiting
  | returned (reply : Reply)
deriving DecidableEq

/-- One call of `drainAutomation` or `drainScreenshots`: what it still has to process, and
whether the first of them has been run but is not finished yet. -/
structure Pass (Id : Type) where
  ready : List Id
  ran : Bool
deriving DecidableEq

/-- Each call of `submitRequest` makes a request of its own, named by an id. -/
structure Window (Id : Type) where
  queue : List Id
  requests : Id → Request
  callers : Id → Caller
  /-- The passes of the UI thread, the innermost first: what a request runs may come back
  to the frame loop. -/
  passes : List (Pass Id)
  /-- How often the work of a request has been done; no program reads it. -/
  executed : Id → Nat

inductive Event (Id : Type) where
  | submit (id : Id) (kind : Kind) (first : Int) (onUiThread : Bool)
  /-- A wait ends because the time is over. -/
  | expire (id : Id)
  /-- A wait ends because the request is finished. -/
  | wake (id : Id)
  /-- A pass begins and takes its requests. -/
  | take (screenshots : Bool)
  /-- The innermost pass runs its first request, which may fail. -/
  | perform (failure : Option String)
  | finish
  | leave

namespace Window

variable {Id : Type} [DecidableEq Id]

def change (s : Window Id) (id : Id) (request : Request) : Id → Request :=
  Function.update s.requests id request

/-- `submitRequest`, up to its wait. -/
def submit (s : Window Id) (id : Id) (kind : Kind) (first : Int) (onUiThread : Bool) :
    Window Id :=
  if s.callers id ≠ .absent then s
  else if onUiThread then
    { s with callers := Function.update s.callers id (.returned .refused) }
  else
    { s with
        queue := s.queue ++ [id]
        requests := s.change id { kind := kind, first := first }
        callers := Function.update s.callers id .waiting }

/-- `wait_for` comes back without the request being finished. -/
def expire (s : Window Id) (id : Id) : Window Id :=
  if s.callers id = .waiting ∧ (s.requests id).finished = false then
    if (s.requests id).taken then
      { s with callers := Function.update s.callers id .keepsWaiting }
    else
      { s with
          queue := s.queue.filter (· ≠ id)
          callers := Function.update s.callers id (.returned .timedOut) }
  else s

def replyOf (request : Request) : Reply :=
  if request.ok then .success else .failed request.error

/-- Either wait comes back with the request finished. -/
def wake (s : Window Id) (id : Id) : Window Id :=
  if (s.callers id = .waiting ∨ s.callers id = .keepsWaiting) ∧
      (s.requests id).finished = true then
    { s with callers :=
        Function.update s.callers id (.returned (replyOf (s.requests id))) }
  else s

/-- A pass of `drainScreenshots` is for screenshots, one of `drainAutomation` for the rest. -/
def wanted (s : Window Id) (screenshots : Bool) (id : Id) : Bool :=
  decide ((s.requests id).kind = .screenshot) == screenshots

/-- The first critical section of a pass. -/
def take (s : Window Id) (screenshots : Bool) : Window Id :=
  { s with
      queue := s.queue.filter fun id => !s.wanted screenshots id
      requests := fun id =>
        if id ∈ s.queue ∧ s.wanted screenshots id then { s.requests id with taken := true }
        else s.requests id
      passes := ⟨s.queue.filter (s.wanted screenshots), false⟩ :: s.passes }

/-- What running a request leaves in it. A wait and a quit do not fail. -/
def performed (request : Request) (failure : Option String) : Request :=
  match request.kind, failure with
  | .waitFrames, _ => { request with first := request.first - 1 }
  | .quit, _ => request
  | _, none => request
  | _, some error => { request with ok := false, error := error }

/-- The `switch` of a pass. A wait that is not over is put back in the queue. -/
def perform (s : Window Id) (failure : Option String) : Window Id :=
  match s.passes with
  | ⟨id :: rest, false⟩ :: outer =>
      let request := s.requests id
      if request.kind = .waitFrames ∧ 0 < request.first - 1 then
        { s with
            queue := s.queue ++ [id]
            requests := s.change id { performed request failure with taken := false }
            passes := ⟨rest, false⟩ :: outer }
      else
        { s with
            requests := s.change id (performed request failure)
            passes := ⟨id :: rest, true⟩ :: outer
            executed := Function.update s.executed id (s.executed id + 1) }
  | _ => s

/-- The last critical section for a request. -/
def finish (s : Window Id) : Window Id :=
  match s.passes with
  | ⟨id :: rest, true⟩ :: outer =>
      { s with
          requests := s.change id { s.requests id with finished := true }
          passes := ⟨rest, false⟩ :: outer }
  | _ => s

def leave (s : Window Id) : Window Id :=
  match s.passes with
  | ⟨[], _⟩ :: outer => { s with passes := outer }
  | _ => s

def step (s : Window Id) : Event Id → Window Id
  | .submit id kind first onUiThread => s.submit id kind first onUiThread
  | .expire id => s.expire id
  | .wake id => s.wake id
  | .take screenshots => s.take screenshots
  | .perform failure => s.perform failure
  | .finish => s.finish
  | .leave => s.leave

end Window

/-- Before the first request. -/
def opened {Id : Type} : Window Id where
  queue := []
  requests := fun _ => { kind := .invoke, first := 0 }
  callers := fun _ => .absent
  passes := []
  executed := fun _ => 0

end PointerLab.UiAutomation
