import PointerLab.AutoAssemblerHoldings
import PointerLab.AutoAssemblerRoutines

set_option autoImplicit false

/- Concurrent calls on one script. A call holds `mutex_` only in its sections on the list;
the run between them goes on step by step, and other calls may do anything in between. Each
event is one section, or one step of a run, of one thread. -/
namespace PointerLab.AutoAssembler.Calls

open Std

inductive Request
  | setEnabled (env : Env) (enabled : Bool)
  | update (name source : Text)
  | remove (env : Env)

/-- What a call does once its `setEnabled` has returned. -/
inductive Next
  | done
  | erase

/-- Where a call in progress stands: the section or the step it does next. -/
inductive Stage
  /-- `remove` has found the script on, and calls `setEnabled`. -/
  | disable (env : Env)
  /-- `setEnabled` has its copy of the script, and copies the state. -/
  | copy (env : Env) (script : Script) (enabled : Bool) (next : Next)
  /-- The run that began in the world `met`, and then the section that stores what it leaves. -/
  | run (script : Script) (enabled : Bool) (met : World)
      (routine : Routine World (RunState × Except String Unit)) (next : Next)
  | erase

inductive Progress
  | pending (stage : Stage)
  | finished (reply : Except String Unit)

/-- The list, the target, and the call each thread has in progress. -/
structure Shared where
  list : Scripts
  world : World
  calls : TreeMap Nat Stage := ∅
  /-- Bookkeeping: the records that enables of the script have added. -/
  added : List Nat := []
  /-- Bookkeeping: the blocks that enables of the script have allocated and that are there. -/
  allocated : List Nat := []
  /-- Bookkeeping: the source that was last enabled. -/
  source : Option Text := none

/-- A `setEnabled` has returned to the call that made it. -/
def follow (reply : Except String Unit) : Next → Progress
  | .done => .finished reply
  | .erase =>
      match reply with
      | .error message => .finished (.error message)
      | .ok () => .pending .erase

/-- The first section of `setEnabled`, within any call. -/
def beginRun (env : Env) (id : Nat) (enabled : Bool) (next : Next) (list : Scripts) : Progress :=
  match list.find id with
  | none => follow (.error gone) next
  | some script =>
      if script.enabled = enabled then follow (.ok ()) next
      else .pending (.copy env script enabled next)

/-- The first section of a call, for `update` the only one. -/
def beginCall (id : Nat) (list : Scripts) : Request → Scripts × Progress
  | .setEnabled env enabled => (list, beginRun env id enabled .done list)
  | .update name source => ((update id name source list).1, .finished (update id name source list).2)
  | .remove env =>
      match list.find id with
      | none => (list, .pending .erase)
      | some script => (list, .pending (if script.enabled then .disable env else .erase))

/-- The run of a script, before its first step. -/
def routineOf (env : Env) (script : Script) (enabled : Bool) (state : RunState) :
    Routine World (RunState × Except String Unit) :=
  if enabled then enableRoutine env script state else disableRoutine env script state

theorem finish_routineOf (env : Env) (script : Script) (enabled : Bool) (state : RunState)
    (world : World) :
    (routineOf env script enabled state).finish world = runScript env script enabled state world := by
  unfold routineOf runScript
  cases enabled with
  | true => exact finish_enable env script state world
  | false => exact finish_disable env script state world

/-- The last section of `setEnabled`. What an enable has brought is what was not there when
it began. -/
def storeRun (id : Nat) (script : Script) (enabled : Bool) (met : World) (state : RunState)
    (outcome : Except String Unit) (s : Shared) : Shared where
  list := store id enabled state outcome s.list
  world := s.world
  calls := s.calls
  added :=
    if enabled then s.added ++ s.world.recordIds.filter (!met.recordIds.contains ·) else s.added
  allocated :=
    (if enabled then s.allocated ++ s.world.blockBases.filter (!met.blockBases.contains ·)
      else s.allocated).filter (s.world.blockBases.contains ·)
  source := if enabled && outcome.isOk then some script.source else s.source

/-- One more section or step of a call in progress. -/
def advance (id : Nat) (s : Shared) : Stage → Shared × Progress
  | .disable env => (s, beginRun env id false .erase s.list)
  | .copy env script enabled next =>
      (s, .pending (.run script enabled s.world
        (routineOf env script enabled (s.list.stored id)) next))
  | .run script enabled met (.act effect rest) next =>
      ({ s with world := effect s.world }, .pending (.run script enabled met (rest s.world) next))
  | .run script enabled met (.done (state, outcome)) next =>
      (storeRun id script enabled met state outcome s, follow outcome next)
  | .erase => ({ s with list := (eraseScript id s.list).1 }, .finished (eraseScript id s.list).2)

inductive Event
  | begin (thread : Nat) (request : Request)
  | resume (thread : Nat)

def proceed (thread : Nat) (calls : TreeMap Nat Stage) : Progress → TreeMap Nat Stage
  | .pending stage => calls.insert thread stage
  | .finished _ => calls.erase thread

/-- A thread is in one call at a time. -/
def callStep (id : Nat) (s : Shared) : Event → Shared
  | .begin thread request =>
      match s.calls[thread]? with
      | some _ => s
      | none =>
          let (list, progress) := beginCall id s.list request
          { s with list := list, calls := proceed thread s.calls progress }
  | .resume thread =>
      match s.calls[thread]? with
      | none => s
      | some stage =>
          let (s, progress) := advance id s stage
          { s with calls := proceed thread s.calls progress }

/-- Whether a call is between copying the script and storing what its run leaves. -/
def Stage.runs : Stage → Bool
  | .copy .. => true
  | .run .. => true
  | _ => false

/-- Whether a run of the script is in progress. -/
def busy (s : Shared) : Bool := s.calls.toList.any fun (_, stage) => stage.runs

/-- Whether `setEnabled` would go on to run the script. -/
def starts (id : Nat) (enabled : Bool) (s : Shared) : Bool :=
  match s.list.find id with
  | none => false
  | some script => script.enabled != enabled

/-- What a run has to meet to leave nothing unowned. -/
def Clean (env : Env) (script : Script) (enabled : Bool) (state : RunState) (world : World) : Prop :=
  if enabled then GivesBack env script state.symbols world else TakesAll env script state world

instance (env : Env) (script : Script) (enabled : Bool) (state : RunState) (world : World) :
    Decidable (Clean env script enabled state world) :=
  inferInstanceAs (Decidable (if enabled then GivesBack env script state.symbols world
    else TakesAll env script state world))

/-- Runs of the script do not overlap, its text is not replaced and its entry not erased
while one is in progress, an entry that is erased is off, and every run is clean. -/
def Careful (id : Nat) (s : Shared) : Event → Prop
  | .begin _ (.setEnabled _ enabled) => starts id enabled s = true → busy s = false
  | .begin _ (.update _ _) => starts id true s = true → busy s = false
  | .begin _ (.remove _) => True
  | .resume thread =>
      match s.calls[thread]? with
      | some (.disable _) => starts id false s = true → busy s = false
      | some (.copy env script enabled _) => Clean env script enabled (s.list.stored id) s.world
      | some .erase => ∀ script ∈ s.list.find id, script.enabled = false ∧ busy s = false
      | _ => True

instance (id : Nat) (s : Shared) : (event : Event) → Decidable (Careful id s event)
  | .begin _ (.setEnabled _ enabled) =>
      inferInstanceAs (Decidable (starts id enabled s = true → busy s = false))
  | .begin _ (.update _ _) =>
      inferInstanceAs (Decidable (starts id true s = true → busy s = false))
  | .begin _ (.remove _) => isTrue trivial
  | .resume thread =>
      match present : s.calls[thread]? with
      | some (.disable _) =>
          decidable_of_iff (starts id false s = true → busy s = false)
            (by simp only [Careful, present])
      | some (.copy env script enabled _) =>
          decidable_of_iff (Clean env script enabled (s.list.stored id) s.world)
            (by simp only [Careful, present])
      | some .erase =>
          decidable_of_iff (∀ script ∈ s.list.find id, script.enabled = false ∧ busy s = false)
            (by simp only [Careful, present])
      | some (.run ..) => isTrue (by simp only [Careful, present])
      | none => isTrue (by simp only [Careful, present])

/-- With no call in progress: what the script's enables have brought and nobody has undone
is in its stored state, a script that is off or gone owns nothing, and the source of one that
is on is the one that was enabled. -/
structure Owned (id : Nat) (s : Shared) : Prop where
  patches : ∀ patch ∈ s.world.target.registry.patches, patch.id ∈ s.added →
    patch.id ∈ (s.list.stored id).patchIds
  blocks : ∀ block ∈ s.world.blocks, block.base ∈ s.allocated →
    ∃ allocation ∈ (s.list.stored id).allocations, allocation.address = block.base
  off : (∀ script ∈ s.list.find id, script.enabled = false) → OwnsNothing (s.list.stored id)
  source : ∀ script ∈ s.list.find id, script.enabled = true → s.source = some script.source

end PointerLab.AutoAssembler.Calls
