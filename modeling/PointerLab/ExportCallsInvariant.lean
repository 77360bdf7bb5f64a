import PointerLab.ExportCalls

set_option autoImplicit false

/- What the generations are for: in every interleaving of calls with attach, detach and refresh,
what is in the cache was parsed under the generation that stands with it. -/
namespace PointerLab.ExportResolver.Calls

open Std Domain TargetView OrderedMap

section Specification

variable (sort : List ExportEntry → List ExportEntry)

/-- A parse from start to finish under one generation: the session had it when the parse began, at
each of its reads and when it was kept, and what the reads met makes the result. -/
structure Kept.Under (kept : Kept) (generation : Nat) : Prop where
  began : kept.parse.begun = generation
  reads : ∀ session ∈ kept.parse.met, session.generation = generation
  ended : kept.ended = generation
  made : (parsing sort kept.parse.base).after (kept.parse.met.map Session.view) =
    .done (.ok (some kept.result))

/-- The exports of a module, as a parse under a generation has found them. -/
def ParsedUnder (s : Shared) (generation base : Nat) (result : List ExportEntry) : Prop :=
  ∃ kept ∈ s.kept, kept.parse.base = base ∧ kept.result = result ∧ kept.Under sort generation

/-- The whole cache is of one generation. -/
def Filled (s : Shared) (generation : Nat) : Prop :=
  ∀ entry ∈ s.cache.modules, ParsedUnder sort s generation entry.1 entry.2

/-- A parse in progress is no older than its call's generation, and has come as far as its reads
say. -/
structure Going (now : Nat) (parse : Parse)
    (rest : Reading (Result (Option (List ExportEntry)))) : Prop where
  began : parse.generation ≤ parse.begun ∧ parse.begun ≤ now
  reads : ∀ session ∈ parse.met,
    parse.generation ≤ session.generation ∧ session.generation ≤ now
  made : (parsing sort parse.base).after (parse.met.map Session.view) = rest

/-- Until the session moves on, nothing of another generation comes into the cache behind the first
section of a call. -/
def Stands (s : Shared) (thread : Nat) : Stage → Prop
  | .attached _ => True
  | .generation _ => True
  | .lookup _ generation => generation ≤ s.session.generation
  | .parse parse rest => Going sort s.session.generation parse rest ∧
      (parse.generation = s.session.generation → Filled sort s parse.generation)
  | .store parse ended result => s.holder = some thread ∧
      parse.generation ≤ s.session.generation ∧
      Kept.Under sort ⟨parse, ended, result⟩ parse.generation ∧ Filled sort s parse.generation

structure Sound (s : Shared) : Prop where
  filled : Filled sort s s.cache.generation
  served : ∀ served ∈ s.served, ParsedUnder sort s served.generation served.base served.result
  stands : ∀ (thread : Nat) (stage : Stage), s.calls[thread]? = some stage →
    Stands sort s thread stage
  /-- While a call has the lock, no parse begins that could be of a later generation. -/
  locked : ∀ (thread : Nat) (parse : Parse) (ended : Nat) (result : List ExportEntry),
    s.calls[thread]? = some (.store parse ended result) →
      ∀ (other : Nat) (another : Parse) (rest : Reading (Result (Option (List ExportEntry)))),
        s.calls[other]? = some (.parse another rest) → another.generation ≤ parse.generation

end Specification

variable {sort : List ExportEntry → List ExportEntry} {s after : Shared} {thread : Nat}

theorem proceed_eq_some {calls : TreeMap Nat Stage} {other : Nat} {progress : Progress}
    {stage : Stage} (present : (proceed thread calls progress)[other]? = some stage) :
    (other = thread ∧ progress = .pending stage) ∨
      (other ≠ thread ∧ calls[other]? = some stage) := by
  cases progress with
  | pending new =>
      cases Tables.eq_some_of_insert present with
      | inl here => exact Or.inl ⟨here.1, here.2 ▸ rfl⟩
      | inr elsewhere => exact Or.inr elsewhere
  | finished reply => exact Or.inr (Tables.eq_some_of_erase present)

/-- What no step but the store does to a call elsewhere. -/
structure Quiet (sort : List ExportEntry → List ExportEntry) (s after : Shared) : Prop where
  later : s.session.generation ≤ after.session.generation
  filled : ∀ generation, Filled sort s generation → Filled sort after generation
  holder : after.holder = s.holder ∨ s.holder = none

theorem Quiet.refl (sort : List ExportEntry → List ExportEntry) (s : Shared) : Quiet sort s s :=
  ⟨Nat.le_refl _, fun _ filled => filled, Or.inl rfl⟩

theorem Going.later {now later : Nat} {parse : Parse}
    {rest : Reading (Result (Option (List ExportEntry)))} (going : Going sort now parse rest)
    (goes : now ≤ later) : Going sort later parse rest where
  began := ⟨going.began.1, Nat.le_trans going.began.2 goes⟩
  reads session inside :=
    ⟨(going.reads session inside).1, Nat.le_trans (going.reads session inside).2 goes⟩
  made := going.made

theorem Stands.quiet {stage : Stage} (stands : Stands sort s thread stage)
    (quiet : Quiet sort s after) : Stands sort after thread stage := by
  cases stage with
  | attached base => trivial
  | generation base => trivial
  | lookup base generation => exact Nat.le_trans stands quiet.later
  | parse parse rest =>
      obtain ⟨going, current⟩ := stands
      refine ⟨going.later quiet.later, fun same => quiet.filled _ (current ?_)⟩
      have before := Nat.le_trans going.began.1 going.began.2
      have later := quiet.later
      omega
  | store parse ended result =>
      obtain ⟨holds, before, under, filled⟩ := stands
      refine ⟨?_, Nat.le_trans before quiet.later, under, quiet.filled _ filled⟩
      cases quiet.holder with
      | inl same => rw [same, holds]
      | inr free => rw [free] at holds; contradiction

theorem Stands.withCalls {stage : Stage} (stands : Stands sort s thread stage)
    (calls : TreeMap Nat Stage) : Stands sort { s with calls := calls } thread stage := by
  cases stage <;> exact stands

/-- What a call brings to the stage that it goes on to. A parse begins while the lock is free. -/
def Enters (sort : List ExportEntry → List ExportEntry) (s after : Shared) (thread : Nat) :
    Progress → Prop
  | .finished _ => True
  | .pending (.parse parse rest) => Stands sort after thread (.parse parse rest) ∧
      (s.holder = none ∨ ∃ (old : Parse) (left : Reading (Result (Option (List ExportEntry)))),
        s.calls[thread]? = some (.parse old left) ∧ old.generation = parse.generation)
  | .pending (.store parse ended result) => Stands sort after thread (.store parse ended result) ∧
      parse.generation = s.session.generation
  | .pending stage => Stands sort after thread stage

theorem Enters.stands {stage : Stage} (enters : Enters sort s after thread (.pending stage)) :
    Stands sort after thread stage := by
  cases stage with
  | attached base => trivial
  | generation base => trivial
  | lookup base generation => exact enters
  | parse parse rest => exact enters.1
  | store parse ended result => exact enters.1

/-- A step of a call after which the others stand. -/
theorem Sound.moved (before : Sound sort s) {progress : Progress} (calls : after.calls = s.calls)
    (filled : Filled sort after after.cache.generation)
    (served : ∀ served ∈ after.served,
      ParsedUnder sort after served.generation served.base served.result)
    (others : ∀ (other : Nat) (stage : Stage), other ≠ thread → s.calls[other]? = some stage →
      Stands sort after other stage)
    (enters : Enters sort s after thread progress) :
    Sound sort (settle thread (after, progress)) := by
  constructor
  · exact filled
  · exact served
  · intro other stage present
    have present : (proceed thread after.calls progress)[other]? = some stage := present
    cases proceed_eq_some present with
    | inl here =>
        rw [here.2] at enters
        rw [here.1]
        exact enters.stands.withCalls _
    | inr elsewhere =>
        exact (others other stage elsewhere.1 (calls ▸ elsewhere.2)).withCalls _
  · intro first parse ended result holds other another rest parses
    have holds : (proceed thread after.calls progress)[first]? =
        some (.store parse ended result) := holds
    have parses : (proceed thread after.calls progress)[other]? =
        some (.parse another rest) := parses
    rw [calls] at holds parses
    cases proceed_eq_some holds with
    | inl here =>
        cases proceed_eq_some parses with
        | inl same =>
            have both := here.2.symm.trans same.2
            cases both
        | inr elsewhere =>
            rw [here.2] at enters
            rw [enters.2]
            have going := (before.stands other _ elsewhere.2).1
            exact Nat.le_trans going.began.1 going.began.2
    | inr held =>
        cases proceed_eq_some parses with
        | inl here =>
            rw [here.2] at enters
            cases enters.2 with
            | inl free =>
                have taken := (before.stands first _ held.2).1
                rw [free] at taken
                contradiction
            | inr goes =>
                obtain ⟨old, left, was, same⟩ := goes
                rw [← same]
                exact before.locked first parse ended result held.2 thread old left was
        | inr elsewhere =>
            exact before.locked first parse ended result held.2 other another rest elsewhere.2

/-- A step that touches nothing that is shared, or only what is as good for the others. -/
theorem Sound.quiet (before : Sound sort s) {progress : Progress} (calls : after.calls = s.calls)
    (quiet : Quiet sort s after) (filled : Filled sort after after.cache.generation)
    (served : ∀ served ∈ after.served,
      ParsedUnder sort after served.generation served.base served.result)
    (enters : Enters sort s after thread progress) :
    Sound sort (settle thread (after, progress)) :=
  before.moved calls filled served
    (fun other stage _ present => (before.stands other stage present).quiet quiet) enters

/-- A call that goes on, waits or returns, and leaves everything else as it is. -/
theorem Sound.unshared (before : Sound sort s) {progress : Progress}
    (enters : Enters sort s s thread progress) : Sound sort (settle thread (s, progress)) :=
  before.quiet rfl (Quiet.refl sort s) before.filled before.served enters

theorem opened_generation (generation : Nat) (cache : Cache) :
    (opened generation cache).generation = generation := by
  unfold opened
  split
  · rfl
  · rename_i same
    exact (not_not.mp same).symm

theorem mem_opened {generation : Nat} {cache : Cache} {entry : Nat × List ExportEntry}
    (inside : entry ∈ (opened generation cache).modules) :
    entry ∈ cache.modules ∧ cache.generation = generation := by
  unfold opened at inside
  split at inside
  · contradiction
  · rename_i same
    exact ⟨inside, (not_not.mp same).symm⟩

/-- After the first section of a call the cache is of its generation. -/
theorem Sound.lookup (before : Sound sort s) {base generation : Nat} (free : s.holder = none)
    (read : generation ≤ s.session.generation) :
    Sound sort (settle thread (Calls.lookup sort base generation s)) := by
  have filled : Filled sort { s with cache := opened generation s.cache } generation := by
    intro entry inside
    have there := mem_opened inside
    rw [← there.2]
    exact before.filled entry there.1
  have current : Filled sort { s with cache := opened generation s.cache }
      (opened generation s.cache).generation := by
    rw [opened_generation]
    exact filled
  have quiet : Quiet sort s { s with cache := opened generation s.cache } :=
    ⟨Nat.le_refl _, fun _ all entry inside => all entry (mem_opened inside).1, Or.inl rfl⟩
  unfold Calls.lookup
  cases found : find baseOrder base (opened generation s.cache).modules with
  | some cached =>
      dsimp only
      apply @Sound.quiet sort s { s with
        cache := opened generation s.cache
        served := s.served ++ [⟨base, generation, cached⟩] } thread before (.finished (.ok cached))
        rfl ⟨quiet.later, quiet.filled, quiet.holder⟩ current
      · intro served inside
        cases List.mem_append.mp inside with
        | inl earlier => exact before.served served earlier
        | inr last =>
            rw [List.mem_singleton.mp last]
            obtain ⟨entry, there, same, value⟩ := exists_of_find found
            have kept := filled entry there
            rwa [value, show entry.1 = base from same] at kept
      · trivial
  | none =>
      dsimp only
      apply @Sound.quiet sort s { s with cache := opened generation s.cache } thread before
        _ rfl quiet current before.served
      have going : Going sort s.session.generation
          ⟨base, generation, s.session.generation, []⟩ (parsing sort base) :=
        ⟨⟨read, Nat.le_refl _⟩, fun session inside => absurd inside List.not_mem_nil,
          Routine.after_nil _⟩
      exact ⟨⟨going, fun _ => filled⟩, Or.inl free⟩

/-- A read that meets the session as it is. -/
theorem Sound.read (before : Sound sort s) {parse : Parse} {effect : TargetView → TargetView}
    {next : TargetView → Reading (Result (Option (List ExportEntry)))}
    (present : s.calls[thread]? = some (.parse parse (.act effect next))) :
    Sound sort (settle thread
      ({ s with session := { s.session with view := effect s.session.view } },
        .pending (.parse { parse with met := parse.met ++ [s.session] }
          (next s.session.view)))) := by
  obtain ⟨going, current⟩ := before.stands thread _ present
  have now : parse.generation ≤ s.session.generation :=
    Nat.le_trans going.began.1 going.began.2
  apply @Sound.quiet sort s { s with
    session := { s.session with view := effect s.session.view } } thread before _ rfl
    ⟨Nat.le_refl _, fun _ filled => filled, Or.inl rfl⟩ before.filled before.served
  refine ⟨⟨⟨going.began, ?_, ?_⟩, current⟩, Or.inr ⟨parse, _, present, rfl⟩⟩
  · intro session inside
    cases List.mem_append.mp inside with
    | inl earlier => exact going.reads session earlier
    | inr last =>
        rw [List.mem_singleton.mp last]
        exact ⟨now, Nat.le_refl _⟩
  · show (parsing sort parse.base).after ((parse.met ++ [s.session]).map Session.view) = _
    rw [List.map_append]
    exact Routine.after_concat going.made s.session.view

/-- The third reading of the generation: where it is the first, so is every one between. -/
theorem Sound.agree (before : Sound sort s) {parse : Parse} {result : List ExportEntry}
    (free : s.holder = none)
    (present : s.calls[thread]? = some (.parse parse (.done (.ok (some result))))) :
    Sound sort (settle thread (Calls.agree thread parse result s)) := by
  obtain ⟨going, current⟩ := before.stands thread _ present
  unfold Calls.agree
  by_cases same : s.session.generation = parse.generation
  · rw [if_pos same]
    apply @Sound.quiet sort s { s with holder := some thread } thread before _ rfl
      ⟨Nat.le_refl _, fun _ filled => filled, Or.inr free⟩ before.filled before.served
    have under : Kept.Under sort ⟨parse, s.session.generation, result⟩ parse.generation := by
      refine ⟨?_, ?_, same, going.made⟩
      · exact Nat.le_antisymm (same ▸ going.began.2) going.began.1
      · intro session inside
        have between := going.reads session inside
        exact Nat.le_antisymm (same ▸ between.2) between.1
    exact ⟨⟨rfl, Nat.le_of_eq same.symm, under, current same.symm⟩, same.symm⟩
  · rw [if_neg same]
    exact before.unshared trivial

theorem ParsedUnder.mono {generation base : Nat} {result : List ExportEntry}
    (more : ∀ kept ∈ s.kept, kept ∈ after.kept)
    (under : ParsedUnder sort s generation base result) :
    ParsedUnder sort after generation base result := by
  obtain ⟨kept, inside, rest⟩ := under
  exact ⟨kept, more kept inside, rest⟩

/-- The result goes into a cache of its own generation. -/
theorem Sound.store (before : Sound sort s) {parse : Parse} {ended : Nat}
    {result : List ExportEntry}
    (present : s.calls[thread]? = some (.store parse ended result)) :
    Sound sort (settle thread (Calls.store parse ended result s, .finished (.ok result))) := by
  obtain ⟨holds, now, under, filled⟩ := before.stands thread _ present
  have more : ∀ kept ∈ s.kept, kept ∈ (Calls.store parse ended result s).kept :=
    fun kept inside => List.mem_append_left _ inside
  have stored : Filled sort (Calls.store parse ended result s) parse.generation := by
    intro entry inside
    cases mem_assign inside with
    | inl new =>
        exact ⟨⟨parse, ended, result⟩, List.mem_append_right _ (List.mem_singleton_self _),
          new.1.symm, new.2.symm, under⟩
    | inr old => exact ParsedUnder.mono more (filled entry old)
  apply @Sound.moved sort s (Calls.store parse ended result s) thread before _ rfl stored
  · exact fun served inside => ParsedUnder.mono more (before.served served inside)
  · intro other stage elsewhere there
    have stands := before.stands other stage there
    cases stage with
    | attached base => trivial
    | generation base => trivial
    | lookup base generation => exact stands
    | parse another rest =>
        refine ⟨stands.1, fun same => ?_⟩
        have older := before.locked thread parse ended result present other another rest there
        have here : another.generation = s.session.generation := same
        have equal : another.generation = parse.generation := by omega
        rw [equal]
        exact stored
    | store another ended result =>
        have both := stands.1.symm.trans holds
        exact absurd (Option.some.inj both) elsewhere
  · trivial

/-- What one step of a call keeps. -/
theorem Sound.advance (before : Sound sort s) {stage : Stage}
    (present : s.calls[thread]? = some stage) :
    Sound sort (settle thread (Calls.advance sort thread s stage)) := by
  cases stage with
  | attached base =>
      rw [Calls.advance]
      split
      · exact before.unshared trivial
      · exact before.unshared trivial
  | generation base => exact before.unshared (Nat.le_refl s.session.generation)
  | lookup base generation =>
      have stands := before.stands thread _ present
      rw [Calls.advance]
      cases taken : s.holder with
      | none => exact before.lookup taken stands
      | some holder => exact before.unshared stands
  | parse parse rest =>
      cases rest with
      | act effect next => exact before.read present
      | done outcome =>
          cases outcome with
          | error failure => exact before.unshared trivial
          | ok found =>
              cases found with
              | none => exact before.unshared trivial
              | some result =>
                  have stands := before.stands thread _ present
                  rw [Calls.advance]
                  cases taken : s.holder with
                  | none => exact before.agree taken present
                  | some holder =>
                      exact before.unshared ⟨stands, Or.inr ⟨parse, _, present, rfl⟩⟩
  | store parse ended result => exact before.store present

theorem Session.change_later (session : Session) (change : Change) :
    session.generation ≤ (session.change change).generation := by
  cases change with
  | attach view => exact Nat.le_succ _
  | detach => exact Nat.le_succ _
  | refresh modules regions =>
      unfold Session.change
      dsimp only
      split
      · exact Nat.le_succ _
      · exact Nat.le_refl _
  | runs memory => exact Nat.le_refl _

/-- What one step keeps, whoever takes it. -/
theorem Sound.step (before : Sound sort s) (event : Event) :
    Sound sort (Calls.step sort s event) := by
  cases event with
  | begin thread base =>
      rw [Calls.step]
      cases there : s.calls[thread]? with
      | some stage => exact before
      | none =>
          exact @Sound.unshared sort s thread before (.pending (.attached base)) trivial
  | resume thread =>
      rw [Calls.step]
      cases there : s.calls[thread]? with
      | none => exact before
      | some stage => exact before.advance there
  | change change =>
      have quiet : Quiet sort s (Calls.step sort s (.change change)) :=
        ⟨s.session.change_later change, fun _ filled => filled, Or.inl rfl⟩
      constructor
      · exact before.filled
      · exact before.served
      · exact fun thread stage present => (before.stands thread stage present).quiet quiet
      · exact before.locked

theorem sound_start (sort : List ExportEntry → List ExportEntry) (session : Session) :
    Sound sort { session } := by
  constructor
  · exact fun entry inside => absurd inside List.not_mem_nil
  · exact fun served inside => absurd inside List.not_mem_nil
  · intro thread stage present
    rw [TreeMap.getElem?_emptyc] at present
    contradiction
  · intro thread parse ended result present
    rw [TreeMap.getElem?_emptyc] at present
    contradiction

/-- In every state that calls of `exports` reach, in whatever order their steps come and whatever
happens to the session between them: what the cache holds was parsed from start to finish under
the generation that stands with it, and what a call was served out of it was parsed so under the
very generation that the call had read. -/
theorem run_parsedUnder (sort : List ExportEntry → List ExportEntry) (session : Session)
    (events : List Event) :
    let s := Runs.run (step sort) { session } events
    (∀ entry ∈ s.cache.modules, ParsedUnder sort s s.cache.generation entry.1 entry.2) ∧
      ∀ served ∈ s.served,
        ParsedUnder sort s served.generation served.base served.result := by
  intro s
  have sound : Sound sort s :=
    (Runs.follows_true (step sort) { session } events).reached.invariant
      (sound_start sort session) fun _ event before _ => before.step event
  exact ⟨sound.filled, sound.served⟩

end PointerLab.ExportResolver.Calls
