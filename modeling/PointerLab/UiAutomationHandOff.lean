import PointerLab.UiAutomation

set_option autoImplicit false

/- A request is in one place at a time: in the queue, in the hand of one pass, or done with.
Its submitter returns only when it is in none of them. -/
namespace PointerLab.UiAutomation

open Runs

variable {Id : Type} [DecidableEq Id]

/-- How often the work has been done when a submitter returns so. -/
def Reply.executions : Reply → Nat
  | .success => 1
  | .failed _ => 1
  | .timedOut => 0
  | .refused => 0

namespace Window

variable {s : Window Id} {id : Id}

/-- The requests the passes have taken and not finished. -/
def inHand (s : Window Id) : List Id := s.passes.flatMap Pass.ready

/-- The request has been run by the pass that has it, and is not finished yet. -/
def ranIn (passes : List (Pass Id)) (id : Id) : Bool :=
  passes.any fun pass => pass.ran && pass.ready.head? == some id

def Waits (s : Window Id) (id : Id) : Prop :=
  s.callers id = .waiting ∨ s.callers id = .keepsWaiting

/-- Where the request of a call of `submitRequest` stands. -/
inductive Stands (s : Window Id) (id : Id) : Prop
  | absent (caller : s.callers id = .absent) (notQueued : id ∉ s.queue)
      (notInHand : id ∉ s.inHand) (unexecuted : s.executed id = 0)
  | queued (waits : s.Waits id) (member : id ∈ s.queue)
      (free : (s.requests id).taken = false) (unfinished : (s.requests id).finished = false)
      (unexecuted : s.executed id = 0)
  | held (waits : s.Waits id) (member : id ∈ s.inHand)
      (taken : (s.requests id).taken = true) (unfinished : (s.requests id).finished = false)
      (executed : s.executed id = if ranIn s.passes id then 1 else 0)
  | finished (waits : s.Waits id) (notQueued : id ∉ s.queue) (notInHand : id ∉ s.inHand)
      (ended : (s.requests id).finished = true) (executed : s.executed id = 1)
  | returned (reply : Reply) (caller : s.callers id = .returned reply)
      (notQueued : id ∉ s.queue) (notInHand : id ∉ s.inHand)
      (executed : s.executed id = reply.executions)

structure Kept (s : Window Id) : Prop where
  apart : (s.queue ++ s.inHand).Nodup
  stands : ∀ id, s.Stands id

theorem kept_opened : Kept (opened : Window Id) where
  apart := List.nodup_nil
  stands := fun _ => .absent rfl List.not_mem_nil List.not_mem_nil rfl

omit [DecidableEq Id] in
theorem inHand_of_passes {pass : Pass Id} {outer : List (Pass Id)}
    (passes : s.passes = pass :: outer) :
    s.inHand = pass.ready ++ outer.flatMap Pass.ready := by
  rw [inHand, passes, List.flatMap_cons]

theorem ranIn_of_not_mem {passes : List (Pass Id)} (outside : id ∉ passes.flatMap Pass.ready) :
    ranIn passes id = false := by
  rw [ranIn, List.any_eq_false]
  intro pass member runs
  simp only [Bool.and_eq_true, beq_iff_eq] at runs
  exact outside (List.mem_flatMap.mpr ⟨pass, member, List.mem_of_head? runs.2⟩)

theorem Kept.not_inHand (kept : Kept s) (member : id ∈ s.queue) : id ∉ s.inHand :=
  fun other => (List.nodup_append.mp kept.apart).2.2 id member id other rfl

/-- What an event does not touch stands where it stood. -/
theorem Stands.of_same {t : Window Id} (stands : s.Stands id)
    (caller : t.callers id = s.callers id) (queue : id ∈ t.queue ↔ id ∈ s.queue)
    (hand : id ∈ t.inHand ↔ id ∈ s.inHand)
    (taken : (t.requests id).taken = (s.requests id).taken)
    (finished : (t.requests id).finished = (s.requests id).finished)
    (ran : ranIn t.passes id = ranIn s.passes id)
    (executed : t.executed id = s.executed id) : t.Stands id := by
  cases stands with
  | absent is notQueued notInHand unexecuted =>
      exact .absent (caller.trans is) (mt queue.mp notQueued) (mt hand.mp notInHand)
        (executed.trans unexecuted)
  | queued waits member free unfinished unexecuted =>
      refine .queued ?_ (queue.mpr member) (taken.trans free) (finished.trans unfinished)
        (executed.trans unexecuted)
      rw [Waits, caller]
      exact waits
  | held waits member has unfinished count =>
      refine .held ?_ (hand.mpr member) (taken.trans has) (finished.trans unfinished) ?_
      · rw [Waits, caller]
        exact waits
      · rw [executed, ran]
        exact count
  | finished waits notQueued notInHand ended count =>
      refine .finished ?_ (mt queue.mp notQueued) (mt hand.mp notInHand) (finished.trans ended)
        (executed.trans count)
      rw [Waits, caller]
      exact waits
  | returned reply is notQueued notInHand count =>
      exact .returned reply (caller.trans is) (mt queue.mp notQueued) (mt hand.mp notInHand)
        (executed.trans count)

/-- A caller's own return or longer wait changes nothing for the others. -/
theorem Stands.of_caller (stands : s.Stands id) {other : Id} (apart : id ≠ other)
    (caller : Caller) :
    Stands { s with callers := Function.update s.callers other caller } id :=
  stands.of_same (Function.update_of_ne apart _ _) Iff.rfl Iff.rfl rfl rfl rfl rfl

theorem kept_submit (kept : Kept s) (id : Id) (kind : Kind) (first : Int)
    (onUiThread : Bool) : Kept (s.submit id kind first onUiThread) := by
  unfold submit
  split
  · exact kept
  · rename_i known
    have absent : s.callers id = .absent := not_not.mp known
    cases kept.stands id with
    | absent _ notQueued notInHand unexecuted =>
        split
        · refine ⟨kept.apart, ?_⟩
          intro other
          by_cases same : other = id
          · subst same
            exact .returned .refused (Function.update_self ..) notQueued notInHand unexecuted
          · exact (kept.stands other).of_caller same _
        · constructor
          · have moved : (s.queue ++ [id] ++ s.inHand).Perm (id :: (s.queue ++ s.inHand)) := by
              rw [List.append_assoc, List.singleton_append]
              exact List.perm_middle
            refine moved.nodup_iff.mpr (List.nodup_cons.mpr ⟨?_, kept.apart⟩)
            exact fun member => (List.mem_append.mp member).elim notQueued notInHand
          · intro other
            by_cases same : other = id
            · subst same
              refine .queued (.inl (Function.update_self ..)) ?_ ?_ ?_ unexecuted
              · exact List.mem_append_right _ (List.mem_singleton.mpr rfl)
              · simp [change]
              · simp [change]
            · refine (kept.stands other).of_same (Function.update_of_ne same _ _) ?_ Iff.rfl ?_ ?_
                rfl rfl
              · simp [same]
              · simp [change, same]
              · simp [change, same]
    | queued waits => rcases waits with is | is <;> exact absurd (is.symm.trans absent) (by simp)
    | held waits => rcases waits with is | is <;> exact absurd (is.symm.trans absent) (by simp)
    | finished waits => rcases waits with is | is <;> exact absurd (is.symm.trans absent) (by simp)
    | returned reply is => exact absurd (is.symm.trans absent) (by simp)

/-- Whoever gives up has his request still in the queue; otherwise he goes on waiting. -/
theorem kept_expire (kept : Kept s) (id : Id) : Kept (s.expire id) := by
  unfold expire
  split
  · rename_i guard
    obtain ⟨waiting, unfinished⟩ := guard
    split
    · rename_i taken
      refine ⟨kept.apart, ?_⟩
      intro other
      by_cases same : other = id
      · subst same
        cases kept.stands other with
        | held _ member has not_ count =>
            exact .held (.inr (Function.update_self ..)) member has not_ count
        | absent is => exact absurd (is.symm.trans waiting) (by simp)
        | queued _ _ free => exact absurd (free.symm.trans taken) (by simp)
        | finished _ _ _ ended => exact absurd (ended.symm.trans unfinished) (by simp)
        | returned _ is => exact absurd (is.symm.trans waiting) (by simp)
      · exact (kept.stands other).of_caller same _
    · rename_i free
      constructor
      · exact kept.apart.sublist (List.filter_sublist.append (List.Sublist.refl _))
      · intro other
        by_cases same : other = id
        · subst same
          cases kept.stands other with
          | queued _ member _ _ unexecuted =>
              refine .returned .timedOut (Function.update_self ..) ?_ (kept.not_inHand member)
                unexecuted
              simp
          | absent is => exact absurd (is.symm.trans waiting) (by simp)
          | held _ _ has => exact absurd has free
          | finished _ _ _ ended => exact absurd (ended.symm.trans unfinished) (by simp)
          | returned _ is => exact absurd (is.symm.trans waiting) (by simp)
        · refine (kept.stands other).of_same (Function.update_of_ne same _ _) ?_ Iff.rfl rfl rfl
            rfl rfl
          simp [same]
  · exact kept

theorem replyOf_executions (request : Request) : (replyOf request).executions = 1 := by
  unfold replyOf
  split <;> rfl

theorem kept_wake (kept : Kept s) (id : Id) : Kept (s.wake id) := by
  unfold wake
  split
  · rename_i guard
    obtain ⟨waits, ended⟩ := guard
    refine ⟨kept.apart, ?_⟩
    intro other
    by_cases same : other = id
    · subst same
      cases kept.stands other with
      | finished _ notQueued notInHand _ executed =>
          exact .returned _ (Function.update_self ..) notQueued notInHand
            (executed.trans (replyOf_executions _).symm)
      | absent is => rcases waits with at_ | at_ <;> exact absurd (is.symm.trans at_) (by simp)
      | queued _ _ _ unfinished => exact absurd (ended.symm.trans unfinished) (by simp)
      | held _ _ _ unfinished => exact absurd (ended.symm.trans unfinished) (by simp)
      | returned _ is => rcases waits with at_ | at_ <;> exact absurd (is.symm.trans at_) (by simp)
    · exact (kept.stands other).of_caller same _
  · exact kept

/-- A request changes its place with the mark in the same critical section. -/
theorem kept_take (kept : Kept s) (screenshots : Bool) : Kept (s.take screenshots) := by
  have hand : (s.take screenshots).inHand =
      s.queue.filter (s.wanted screenshots) ++ s.inHand := List.flatMap_cons
  have ran : ∀ id, ranIn (s.take screenshots).passes id = ranIn s.passes id := by
    intro id
    simp [ranIn, take]
  constructor
  · rw [hand]
    have parted : (s.queue.filter (fun id => !s.wanted screenshots id) ++
        s.queue.filter (s.wanted screenshots)).Perm s.queue :=
      List.perm_append_comm.trans (List.filter_append_perm _ _)
    rw [← List.append_assoc]
    exact (parted.append_right s.inHand).nodup_iff.mpr kept.apart
  · intro id
    by_cases moves : id ∈ s.queue ∧ s.wanted screenshots id = true
    · have notInHand : id ∉ s.inHand := kept.not_inHand moves.1
      cases kept.stands id with
      | queued waits _ _ unfinished unexecuted =>
          refine .held waits ?_ ?_ ?_ ?_
          · rw [hand]
            exact List.mem_append_left _ (List.mem_filter.mpr moves)
          · simp [take, moves]
          · simp [take, moves, unfinished]
          · rw [ran, ranIn_of_not_mem notInHand]
            exact unexecuted
      | absent _ notQueued => exact absurd moves.1 notQueued
      | held _ member => exact absurd member notInHand
      | finished _ notQueued => exact absurd moves.1 notQueued
      | returned _ _ notQueued => exact absurd moves.1 notQueued
    · refine (kept.stands id).of_same rfl ?_ ?_ ?_ ?_ (ran id) rfl
      · have stays : id ∈ s.queue → s.wanted screenshots id = false := by
          intro member
          simpa using fun wanted => moves ⟨member, wanted⟩
        simpa [take] using stays
      · rw [hand, List.mem_append, List.mem_filter]
        exact or_iff_right moves
      · simp [take, moves]
      · simp [take, moves]

@[simp] theorem performed_taken (request : Request) (failure : Option String) :
    (performed request failure).taken = request.taken := by
  unfold performed
  split <;> rfl

@[simp] theorem performed_finished (request : Request) (failure : Option String) :
    (performed request failure).finished = request.finished := by
  unfold performed
  split <;> rfl

/-- The first request of the innermost pass is held, and no outer pass has it. -/
theorem Kept.first_held (kept : Kept s) {rest : List Id} {ran : Bool} {outer : List (Pass Id)}
    (passes : s.passes = ⟨id :: rest, ran⟩ :: outer) :
    s.Waits id ∧ (s.requests id).taken = true ∧ (s.requests id).finished = false ∧
      s.executed id = (if ran then 1 else 0) ∧ id ∉ s.queue ∧
      id ∉ rest ++ outer.flatMap Pass.ready := by
  have hand : s.inHand = id :: (rest ++ outer.flatMap Pass.ready) := inHand_of_passes passes
  have member : id ∈ s.inHand := hand ▸ List.mem_cons_self
  have alone : id ∉ rest ++ outer.flatMap Pass.ready := by
    have apart := (List.nodup_append.mp kept.apart).2.1
    rw [hand] at apart
    exact (List.nodup_cons.mp apart).1
  have notQueued : id ∉ s.queue := fun queued => kept.not_inHand queued member
  have outside : ranIn outer id = false :=
    ranIn_of_not_mem fun inner => alone (List.mem_append_right _ inner)
  have runs : ranIn s.passes id = ran := by
    rw [passes, ranIn, List.any_cons]
    change (ran && some id == some id || ranIn outer id) = ran
    rw [outside]
    simp
  cases kept.stands id with
  | held waits _ taken unfinished executed =>
      exact ⟨waits, taken, unfinished, runs ▸ executed, notQueued, alone⟩
  | absent _ _ notInHand => exact absurd member notInHand
  | queued _ queued => exact absurd queued notQueued
  | finished _ _ notInHand => exact absurd member notInHand
  | returned _ _ _ notInHand => exact absurd member notInHand

/-- A wait that is not over goes back with its mark taken off; any other work is done here,
once. -/
theorem kept_perform (kept : Kept s) (failure : Option String) : Kept (s.perform failure) := by
  unfold perform
  split
  · rename_i id rest outer passes
    obtain ⟨waits, taken, unfinished, executed, notQueued, alone⟩ := kept.first_held passes
    have hand : s.inHand = id :: (rest ++ outer.flatMap Pass.ready) := inHand_of_passes passes
    have apart := kept.apart
    rw [hand] at apart
    simp only
    split
    · constructor
      · simpa [inHand] using apart
      · intro other
        by_cases same : other = id
        · subst same
          refine .queued waits ?_ ?_ ?_ executed
          · exact List.mem_append_right _ (List.mem_singleton.mpr rfl)
          · simp [change]
          · simp [change, unfinished]
        · refine (kept.stands other).of_same rfl ?_ ?_ ?_ ?_ ?_ rfl
          · simp [same]
          · rw [hand]
            simp [inHand, same]
          · simp [change, same]
          · simp [change, same]
          · simp [ranIn, passes]
    · constructor
      · simpa [inHand] using apart
      · intro other
        by_cases same : other = id
        · subst same
          refine .held waits ?_ ?_ ?_ ?_
          · simp [inHand]
          · simp [change, taken]
          · simp [change, unfinished]
          · simpa [ranIn] using executed
        · refine (kept.stands other).of_same rfl Iff.rfl ?_ ?_ ?_ ?_ ?_
          · rw [hand]
            simp [inHand]
          · simp [change, same]
          · simp [change, same]
          · simp [ranIn, passes, Ne.symm same]
          · simp [same]
  · exact kept

theorem kept_finish (kept : Kept s) : Kept s.finish := by
  unfold finish
  split
  · rename_i id rest outer passes
    obtain ⟨waits, _, _, executed, notQueued, alone⟩ := kept.first_held passes
    have hand : s.inHand = id :: (rest ++ outer.flatMap Pass.ready) := inHand_of_passes passes
    have apart := kept.apart
    rw [hand] at apart
    constructor
    · exact apart.sublist ((List.Sublist.refl _).append (List.sublist_cons_self _ _))
    · intro other
      by_cases same : other = id
      · subst same
        exact .finished waits notQueued alone (by simp [change]) executed
      · refine (kept.stands other).of_same rfl Iff.rfl ?_ ?_ ?_ ?_ rfl
        · rw [hand]
          simp [inHand, same]
        · simp [change, same]
        · simp [change, same]
        · simp [ranIn, passes, Ne.symm same]
  · exact kept

theorem kept_leave (kept : Kept s) : Kept s.leave := by
  unfold leave
  split
  · rename_i ran outer passes
    have hand : s.inHand = outer.flatMap Pass.ready := inHand_of_passes passes
    constructor
    · have apart := kept.apart
      rwa [hand] at apart
    · intro other
      refine (kept.stands other).of_same rfl Iff.rfl ?_ rfl rfl ?_ rfl
      · rw [hand]
        rfl
      · simp [ranIn, passes]
  · exact kept

theorem kept_step (kept : Kept s) (event : Event Id) : Kept (s.step event) := by
  cases event with
  | submit id kind first onUiThread => exact kept_submit kept id kind first onUiThread
  | expire id => exact kept_expire kept id
  | wake id => exact kept_wake kept id
  | take screenshots => exact kept_take kept screenshots
  | perform failure => exact kept_perform kept failure
  | finish => exact kept_finish kept
  | leave => exact kept_leave kept

theorem kept_run (kept : Kept s) (events : List (Event Id)) : Kept (run step s events) :=
  (follows_true step s events).reached.invariant kept
    fun _ event before _ => kept_step before event

/-- Nothing calls a submitter back once it has returned. -/
theorem returned_step {reply : Reply} (is : s.callers id = .returned reply)
    (event : Event Id) : (s.step event).callers id = .returned reply := by
  cases event with
  | submit other kind first onUiThread =>
      simp only [step, submit]
      split
      · exact is
      · rename_i known
        have apart : id ≠ other := by
          rintro rfl
          exact known (by simp [is])
        split <;> simpa [apart] using is
  | expire other =>
      simp only [step, expire]
      split
      · rename_i guard
        have apart : id ≠ other := by
          rintro rfl
          exact absurd (guard.1.symm.trans is) (by simp)
        split <;> simpa [apart] using is
      · exact is
  | wake other =>
      simp only [step, wake]
      split
      · rename_i guard
        have apart : id ≠ other := by
          rintro rfl
          rcases guard.1 with waits | waits <;> exact absurd (waits.symm.trans is) (by simp)
        simpa [apart] using is
      · exact is
  | take screenshots => exact is
  | perform failure =>
      simp only [step, perform]
      split
      · split <;> exact is
      · exact is
  | finish =>
      simp only [step, finish]
      split <;> exact is
  | leave =>
      simp only [step, leave]
      split <;> exact is

theorem returned_run {reply : Reply} (is : s.callers id = .returned reply)
    (events : List (Event Id)) : (run step s events).callers id = .returned reply :=
  @Reached.invariant _ _ _ _ _ _ (fun after => after.callers id = .returned reply)
    (follows_true step s events).reached is fun _ event before _ => returned_step before event

/-- Nothing of a request is left behind when its submitter returns. -/
theorem Kept.done (kept : Kept s) {reply : Reply} (is : s.callers id = .returned reply) :
    id ∉ s.queue ∧ id ∉ s.inHand ∧ s.executed id = reply.executions := by
  cases kept.stands id with
  | returned other also notQueued notInHand executed =>
      have same : other = reply := by
        have both := also.symm.trans is
        simpa using both
      exact ⟨notQueued, notInHand, same ▸ executed⟩
  | absent caller => exact absurd (caller.symm.trans is) (by simp)
  | queued waits => rcases waits with at_ | at_ <;> exact absurd (at_.symm.trans is) (by simp)
  | held waits => rcases waits with at_ | at_ <;> exact absurd (at_.symm.trans is) (by simp)
  | finished waits => rcases waits with at_ | at_ <;> exact absurd (at_.symm.trans is) (by simp)

end Window

open Window

/-- Whatever happens after `submitRequest` has returned, no pass has its request or finds it
in the queue, and its work is not done again. -/
theorem submitRequest_handOff (events more : List (Event Id)) (id : Id) (reply : Reply)
    (returned : (run step opened events).callers id = .returned reply) :
    let s := run step (opened : Window Id) events
    let later := run step s more
    later.callers id = .returned reply ∧ id ∉ later.queue ∧ id ∉ later.inHand ∧
      later.executed id = s.executed id ∧
      (reply = .success → s.executed id = 1) ∧
      (reply = .timedOut → s.executed id = 0 ∧ id ∉ s.queue) := by
  intro s later
  have kept : Kept s := kept_run kept_opened events
  have then_ : later.callers id = .returned reply := returned_run returned more
  obtain ⟨notQueued, _, executed⟩ := kept.done returned
  obtain ⟨laterNotQueued, laterNotInHand, laterExecuted⟩ := (kept_run kept more).done then_
  refine ⟨then_, laterNotQueued, laterNotInHand, laterExecuted.trans executed.symm, ?_, ?_⟩
  · rintro rfl
    exact executed
  · rintro rfl
    exact ⟨executed, notQueued⟩

/-- The time is over while the work is in hand. -/
def lateAnswer : List (Event Nat) :=
  [.submit 0 .invoke 0 false, .take false, .expire 0, .perform none, .finish, .wake 0]

/-- A wait of three frames, given up after the first. -/
def withdrawnWait : List (Event Nat) :=
  [.submit 1 .waitFrames 3 false, .take false, .perform none, .leave, .expire 1]

theorem submitRequest_handOff_runs :
    (run step (run step opened lateAnswer) [.take false, .perform none]).executed 0 = 1 ∧
      (run step (run step opened withdrawnWait) [.take false, .perform none]).executed 1 = 0 := by
  obtain ⟨_, _, _, once, success, _⟩ :=
    submitRequest_handOff lateAnswer [.take false, .perform none] 0 .success (by decide)
  obtain ⟨_, _, _, never, _, timedOut⟩ :=
    submitRequest_handOff withdrawnWait [.take false, .perform none] 1 .timedOut (by decide)
  exact ⟨once.trans (success rfl), never.trans (timedOut rfl).1⟩

end PointerLab.UiAutomation
