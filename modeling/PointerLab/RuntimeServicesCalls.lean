import PointerLab.RuntimeServices

set_option autoImplicit false

/- Sequences of calls that start and stop the access watch and set breakpoints: whose
breakpoint it is that stopping the watch removes. -/
namespace PointerLab.RuntimeServices

open Domain DebugPump Std Runs

inductive Call where
  | start (opening : Opening) (access : Access) (address length : Nat) (writesOnly : Bool)
  | stop (access : Access)
  | add (opening : Opening) (access : Access) (address : Nat) (label : String)
      (kind : BreakpointKind) (length : Nat)
  | remove (access : Access) (address : Nat)

def call (s : RuntimeServices) : Call → RuntimeServices × Result Unit
  | .start opening access address length writesOnly =>
      startAccessWatch opening access address length writesOnly s
  | .stop access => (stopAccessWatch access s, .ok ())
  | .add opening access address label kind length =>
      addBreakpoint opening access address label kind length s
  | .remove access address => removeBreakpoint access address s

/-- The services, and beside them the breakpoints in the table that a successful start put
there. -/
structure Owned where
  services : RuntimeServices
  placed : List Nat := []

def Owned.table (s : Owned) : TreeMap Nat BreakpointInfo := s.services.table

/-- What a call puts into the table for the watch. -/
def places : Call → Result Unit → List Nat
  | .start _ _ address _ _, .ok () => [address]
  | _, _ => []

def Owned.step (s : Owned) (next : Call) : Owned :=
  let (services, ended) := s.services.call next
  { services
    placed := (s.placed ++ places next ended).filter fun place =>
      services.table[place]?.isSome }

/-- The program has started: no debugger yet, no watch. -/
def launched (attached : Bool) : Owned :=
  { services := { attached, pump := { attached := false, memory := fun _ => 0 } } }

/-- Stopping removes only what a start placed, and leaves nothing of that. -/
def StopsRight (s : Owned) (access : Access) : Prop :=
  (∀ place : Nat, s.table[place]? ≠ none → (s.step (.stop access)).table[place]? = none →
      place ∈ s.placed) ∧
    ∀ place ∈ s.placed, (s.step (.stop access)).table[place]? = none

/-- The address last watched is the only one with a breakpoint of a start, and a breakpoint
there is that one. -/
structure WatchOwned (s : Owned) : Prop where
  only : ∀ place ∈ s.placed, place = s.services.watch.watched ∧ place ≠ 0
  mine : s.services.watch.watched ≠ 0 → s.table[s.services.watch.watched]? ≠ none →
    s.services.watch.watched ∈ s.placed

/-- The watch is only stopped while it owns the breakpoint at its address. -/
def StopsOwned (s : Owned) : Call → Prop
  | .stop _ => WatchOwned s
  | _ => True

/-- What is placed is in the table, which is empty until a debugger is attached. -/
structure Placed (s : Owned) : Prop where
  inTable : ∀ place ∈ s.placed, s.table[place]? ≠ none
  empty : s.services.pump.attached = false → ∀ place : Nat, s.table[place]? = none

theorem stop_table (access : Access) (s : RuntimeServices) (place : Nat) :
    (stopAccessWatch access s).table[place]? =
      if s.watch.watched ≠ 0 ∧ s.pump.attached = true ∧ place = s.watch.watched then none
      else s.table[place]? := by
  unfold stopAccessWatch
  dsimp only
  by_cases zero : s.watch.watched = 0
  · simp [zero, table]
  · simp only [bne_iff_ne, ne_eq, zero, not_false_eq_true, if_true, true_and]
    exact pumpRemove_table access s.watch.watched s.pump place

/-- Stopping is right exactly when the watch owns the breakpoint at its address. -/
theorem stopsRight_iff {s : Owned} (placed : Placed s) (access : Access) :
    StopsRight s access ↔ WatchOwned s := by
  have after (place : Nat) : (s.step (.stop access)).table[place]? =
      if s.services.watch.watched ≠ 0 ∧ s.services.pump.attached = true ∧
        place = s.services.watch.watched then none else s.table[place]? :=
    stop_table access s.services place
  have attached {place : Nat} (there : s.table[place]? ≠ none) :
      s.services.pump.attached = true := by
    by_contra detached
    exact there (placed.empty (by simpa using detached) place)
  constructor
  · rintro ⟨removes, leaves⟩
    constructor
    · intro place isPlaced
      have gone := leaves place isPlaced
      have there := placed.inTable place isPlaced
      rw [after] at gone
      split at gone
      · rename_i here
        exact ⟨here.2.2, here.2.2 ▸ here.1⟩
      · exact absurd gone there
    · intro some_ there
      apply removes _ there
      rw [after, if_pos ⟨some_, attached there, rfl⟩]
  · intro owned
    constructor
    · intro place there gone
      rw [after] at gone
      split at gone
      · rename_i here
        rw [here.2.2] at there ⊢
        exact owned.mine here.1 there
      · exact absurd gone there
    · intro place isPlaced
      obtain ⟨here, some_⟩ := owned.only place isPlaced
      rw [after, if_pos ⟨here ▸ some_, attached (placed.inTable place isPlaced), here⟩]

/-- A detached pump has an empty table. -/
def Quiet (s : RuntimeServices) : Prop :=
  s.pump.attached = false → ∀ place : Nat, s.table[place]? = none

theorem quiet_tableOnAttach {s : RuntimeServices} (quiet : Quiet s) (place : Nat) :
    s.tableOnAttach place = s.table[place]? := by
  rw [tableOnAttach]
  split
  · rfl
  · rename_i detached
    exact (quiet (by simpa using detached) place).symm

theorem quiet_same {s t : RuntimeServices} (quiet : Quiet s)
    (attached : t.pump.attached = s.pump.attached)
    (table : ∀ place : Nat, t.table[place]? = none ∨ t.table[place]? = s.table[place]?) : Quiet t := by
  intro detached place
  cases table place with
  | inl gone => exact gone
  | inr same => exact same.trans (quiet (attached.symm.trans detached) place)

/-- A user's breakpoint is new in the table, or nothing changes there. -/
theorem addBreakpoint_cases {s : RuntimeServices} (quiet : Quiet s) (opening : Opening)
    (access : Access) (address : Nat) (label : String) (kind : BreakpointKind) (length : Nat) :
    Quiet (addBreakpoint opening access address label kind length s).1 ∧
      (addBreakpoint opening access address label kind length s).1.watch = s.watch ∧
      ((∀ place : Nat, (addBreakpoint opening access address label kind length s).1.table[place]? =
          s.table[place]?) ∨
        s.table[address]? = none ∧ ∃ info, ∀ place : Nat,
          (addBreakpoint opening access address label kind length s).1.table[place]? =
            if place = address then some info else s.table[place]?) := by
  unfold addBreakpoint
  by_cases session : s.attached = true
  · obtain ⟨pump, ended, attaches, opens, attached, same⟩ := attachDebugger_eq opening session
    have kept (place : Nat) : pump.breakpoints[place]? = s.table[place]? := by
      rw [same, quiet_tableOnAttach quiet]
    rw [attaches]
    cases ended with
    | error failure =>
        refine ⟨?_, rfl, .inl kept⟩
        have closed : s.pump.attached = false := by
          by_contra there
          exact nomatch opens.mpr (.inl (by simpa using there))
        exact fun _ place => (kept place).trans (quiet closed place)
    | ok done =>
        have there := attached rfl
        have stays := (pumpAdd_attached access address label kind length pump).trans there
        refine ⟨fun detached => absurd (stays.symm.trans detached) nofun, rfl, ?_⟩
        rcases pumpAdd_cases access address label kind length pump with
          ⟨_, _, free, info, grown⟩ | ⟨_, unchanged⟩
        · refine .inr ⟨(kept address).symm.trans free, info, ?_⟩
          intro place
          show (DebugPump.addBreakpoint access address label kind length pump).1.breakpoints[place]? = _
          rw [grown, Tables.getElem?_insert, kept]
        · refine .inl fun place => ?_
          show (DebugPump.addBreakpoint access address label kind length pump).1.breakpoints[place]? = _
          rw [unchanged, kept]
  · have refused : attachDebugger opening s =
        (s, fail "No target process is attached.") := by
      simp [attachDebugger, session]
    rw [refused]
    exact ⟨quiet, rfl, .inl fun _ => rfl⟩

theorem quiet_call {s : RuntimeServices} (quiet : Quiet s) (next : Call) :
    Quiet (s.call next).1 := by
  cases next with
  | start opening access address length writesOnly =>
      have starts := startAccessWatch_starts opening access address length writesOnly s
      rw [call]
      generalize startAccessWatch opening access address length writesOnly s = ended at starts ⊢
      cases starts with
      | refused failure unaccepted => exact quiet
      | closed failure pump accepted closed same =>
          have detached : s.pump.attached = false := by
            by_contra there
            exact closed (.inl (by simpa using there))
          intro _ place
          exact (same place).trans ((quiet_tableOnAttach quiet place).trans (quiet detached place))
      | unarmed failure pump accepted opens attached same =>
          exact fun detached => absurd (attached.symm.trans detached) nofun
      | armed pump info accepted opens attached free same =>
          exact fun detached => absurd (attached.symm.trans detached) nofun
  | stop access =>
      apply quiet_same quiet
      · show (stopAccessWatch access s).pump.attached = _
        unfold stopAccessWatch
        dsimp only
        split
        · exact pumpRemove_attached access _ s.pump
        · rfl
      · intro place
        show (stopAccessWatch access s).table[place]? = none ∨
          (stopAccessWatch access s).table[place]? = s.table[place]?
        rw [stop_table]
        split
        · exact .inl rfl
        · exact .inr rfl
  | add opening access address label kind length =>
      exact (addBreakpoint_cases quiet opening access address label kind length).1
  | remove access address =>
      apply quiet_same quiet
      · exact pumpRemove_attached access address s.pump
      · intro place
        show (DebugPump.removeBreakpoint access address s.pump).1.breakpoints[place]? = none ∨
          (DebugPump.removeBreakpoint access address s.pump).1.breakpoints[place]? = s.table[place]?
        rw [pumpRemove_table]
        split
        · exact .inl rfl
        · exact .inr rfl

theorem placed_step {s : Owned} (placed : Placed s) (next : Call) : Placed (s.step next) := by
  constructor
  · intro place isPlaced
    have there := (List.mem_filter.mp isPlaced).2
    exact Option.isSome_iff_ne_none.mp there
  · exact quiet_call placed.empty next

theorem placed_launched (attached : Bool) : Placed (launched attached) := by
  constructor
  · intro place isPlaced
    exact absurd isPlaced List.not_mem_nil
  · intro _ place
    exact TreeMap.getElem?_emptyc

theorem placed_run (attached : Bool) (calls : List Call) :
    Placed (run Owned.step (launched attached) calls) :=
  ((follows_true Owned.step (launched attached) calls).reached).invariant
    (placed_launched attached) fun _ next placed _ => placed_step placed next

/-- Along a run every stop is right exactly when at every stop the watch owns the breakpoint
at its address. -/
theorem run_stopsRight (attached : Bool) (calls : List Call) :
    (∀ done access, done ++ [.stop access] <+: calls →
        StopsRight (run Owned.step (launched attached) done) access) ↔
      Follows Owned.step StopsOwned (launched attached) calls := by
  rw [follows_iff_forall]
  constructor
  · intro right done next part
    cases next with
    | stop access =>
        exact (stopsRight_iff (placed_run attached done) access).mp (right done access part)
    | start | add | remove => trivial
  · intro owned done access part
    exact (stopsRight_iff (placed_run attached done) access).mpr (owned done (.stop access) part)

/-- A call that lets the watch own its breakpoint: nothing is started while a start's
breakpoint is in place elsewhere, at address zero or over a breakpoint of the user, and the
user sets none at the address last watched. -/
def Careful (s : Owned) : Call → Prop
  | .start _ _ address _ _ =>
      address ≠ 0 ∧ (∀ place ∈ s.placed, place = address) ∧
        (s.table[address]? ≠ none → address ∈ s.placed)
  | .add _ _ address _ _ _ =>
      address = s.services.watch.watched → s.table[address]? ≠ none
  | _ => True

/-- The state after a call that ended so. -/
def Owned.after (s : Owned) (next : Call) (ended : RuntimeServices × Result Unit) : Owned :=
  { services := ended.1
    placed := (s.placed ++ places next ended.2).filter fun place => ended.1.table[place]?.isSome }

theorem mem_after {s : Owned} {next : Call} {ended : RuntimeServices × Result Unit} {place : Nat} :
    place ∈ (s.after next ended).placed ↔
      (place ∈ s.placed ∨ place ∈ places next ended.2) ∧ ended.1.table[place]? ≠ none := by
  rw [Owned.after, List.mem_filter, List.mem_append, Option.isSome_iff_ne_none]

/-- A call that places nothing and watches nothing new, and leaves the address last watched
free where it was. -/
theorem watchOwned_kept {s : Owned} (owned : WatchOwned s) {next : Call}
    {ended : RuntimeServices × Result Unit} (nothing : places next ended.2 = [])
    (watched : ended.1.watch.watched = s.services.watch.watched)
    (table : ended.1.table[s.services.watch.watched]? ≠ none →
      s.table[s.services.watch.watched]? ≠ none) : WatchOwned (s.after next ended) := by
  constructor
  · intro place isPlaced
    rw [mem_after, nothing] at isPlaced
    have before := isPlaced.1.resolve_right List.not_mem_nil
    show place = ended.1.watch.watched ∧ place ≠ 0
    rw [watched]
    exact owned.only place before
  · show ended.1.watch.watched ≠ 0 → ended.1.table[ended.1.watch.watched]? ≠ none → _
    intro some_ there
    rw [watched] at some_ there
    have before := owned.mine some_ (table there)
    exact mem_after.mpr ⟨.inl (watched ▸ before), watched.symm ▸ there⟩

theorem watchOwned_start {s : Owned} (placed : Placed s) (owned : WatchOwned s)
    {opening : Opening} {access : Access} {address length : Nat} {writesOnly : Bool}
    (careful : Careful s (.start opening access address length writesOnly))
    {ended : RuntimeServices × Result Unit}
    (starts : Starts opening address length writesOnly s.services ended) :
    WatchOwned (s.after (.start opening access address length writesOnly) ended) := by
  obtain ⟨some_, alone, free_⟩ := careful
  have quiet := quiet_tableOnAttach placed.empty
  cases starts with
  | refused failure unaccepted => exact watchOwned_kept owned rfl rfl id
  | closed failure pump accepted closed same =>
      apply watchOwned_kept owned rfl rfl
      intro there
      exact fun none_ => there ((same _).trans ((quiet _).trans none_))
  | unarmed failure pump accepted opens attached same =>
      constructor
      · intro place isPlaced
        have here := alone place ((mem_after.mp isPlaced).1.resolve_right List.not_mem_nil)
        exact ⟨here, here ▸ some_⟩
      · intro _ there
        have before : s.table[address]? ≠ none := fun none_ =>
          there ((same address).trans ((quiet address).trans none_))
        exact mem_after.mpr ⟨.inl (free_ before), there⟩
  | armed pump info accepted opens attached free same =>
      constructor
      · intro place isPlaced
        have here : place = address := by
          cases (mem_after.mp isPlaced).1 with
          | inl before => exact alone place before
          | inr fresh => exact List.mem_singleton.mp fresh
        exact ⟨here, here ▸ some_⟩
      · intro _ there
        exact mem_after.mpr ⟨.inr (List.mem_singleton.mpr rfl), there⟩

/-- Careful calls keep the watch the owner of its breakpoint. -/
theorem watchOwned_careful {s : Owned} (placed : Placed s) (owned : WatchOwned s) (next : Call)
    (careful : Careful s next) : WatchOwned (s.step next) := by
  show WatchOwned (s.after next (s.services.call next))
  cases next with
  | start opening access address length writesOnly =>
      exact watchOwned_start placed owned careful (startAccessWatch_starts _ access _ _ _ _)
  | stop access =>
      apply watchOwned_kept owned rfl
      · show (stopAccessWatch access s.services).watch.watched = _
        unfold stopAccessWatch
        dsimp only
        split <;> rfl
      · show (stopAccessWatch access s.services).table[_]? ≠ none → _
        rw [stop_table]
        split
        · exact fun gone => absurd rfl gone
        · exact id
  | add opening access address label kind length =>
      obtain ⟨_, watch, table⟩ :=
        addBreakpoint_cases placed.empty opening access address label kind length
      apply watchOwned_kept owned rfl (congrArg AccessWatch.watched watch)
      show (addBreakpoint opening access address label kind length s.services).1.table[_]? ≠ none → _
      rcases table with same | ⟨free, info, grown⟩
      · rw [same]
        exact id
      · rw [grown]
        split
        · rename_i here
          exact absurd free (careful here.symm)
        · exact id
  | remove access address =>
      apply watchOwned_kept owned rfl rfl
      show (DebugPump.removeBreakpoint access address s.services.pump).1.breakpoints[_]? ≠ none → _
      rw [pumpRemove_table]
      split
      · exact fun gone => absurd rfl gone
      · exact id

/-- What careful calls keep. -/
structure Tidy (s : Owned) : Prop where
  placed : Placed s
  owned : WatchOwned s

theorem tidy_launched (attached : Bool) : Tidy (launched attached) := by
  refine ⟨placed_launched attached, ?_, ?_⟩
  · exact fun place isPlaced => absurd isPlaced List.not_mem_nil
  · exact fun some_ => absurd rfl some_

theorem tidy_step {s : Owned} (tidy : Tidy s) (next : Call) (careful : Careful s next) :
    Tidy (s.step next) :=
  ⟨placed_step tidy.placed next, watchOwned_careful tidy.placed tidy.owned next careful⟩

/-- In a run of careful calls every stop is right. -/
theorem run_careful (attached : Bool) {calls : List Call}
    (careful : Follows Owned.step Careful (launched attached) calls) :
    Follows Owned.step StopsOwned (launched attached) calls := by
  rw [follows_iff_forall]
  intro done next part
  have before := careful.take_part ((List.prefix_append done [next]).trans part)
  have tidy : Tidy (run Owned.step (launched attached) done) :=
    before.reached.invariant (tidy_launched attached) fun _ next tidy careful =>
      tidy_step tidy next careful
  cases next with
  | stop access => exact tidy.owned
  | start | add | remove => trivial

/-- A second start leaves the first one's breakpoint behind. -/
def startedTwice : List Call :=
  [.start (.debugging false (fun _ => 0) ∅) {} 0x1000 4 true,
    .start (.debugging false (fun _ => 0) ∅) {} 0x2000 4 true]

theorem startedTwice_left :
    ¬ ∀ calls : List Call, ∀ done access, done ++ [.stop access] <+: calls →
      StopsRight (run Owned.step (launched true) done) access := by
  intro every
  have right := every (startedTwice ++ [.stop {}]) startedTwice {} (List.prefix_refl _)
  have placed : 0x1000 ∈ (run Owned.step (launched true) startedTwice).placed := by
    decide +kernel
  exact absurd (right.2 0x1000 placed) (by decide +kernel)

end PointerLab.RuntimeServices
