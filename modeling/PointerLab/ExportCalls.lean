import PointerLab.ExportReads
import PointerLab.Runs
import PointerLab.Tables

set_option autoImplicit false

/- Concurrent calls of `ExportResolver::exports` on one resolver, while the session is attached,
detached and refreshed. A call holds `cacheMutex_` in its two sections only; each read of the
target, and each look at the session, is a step of its own. -/
namespace PointerLab.ExportResolver.Calls

open Std Domain TargetView OrderedMap

structure Session where
  view : TargetView
  generation : Nat

/-- What happens to the session, or to the target behind it. -/
inductive Change
  | attach (view : TargetView)
  | detach
  | refresh (modules : List ModuleInfo) (regions : List MemoryRegion)
  /-- The target writes to its memory, maps and unmaps it or ends. -/
  | runs (memory : Nat → Option UInt8)

/-- Each in one section of the session's `mutex_`. -/
def Session.change (session : Session) : Change → Session
  | .attach view => ⟨{ view with attached := true }, session.generation + 1⟩
  | .detach => ⟨{ attached := false, memory := fun _ => none }, session.generation + 1⟩
  | .refresh modules regions =>
      if session.view.attached then
        ⟨{ session.view with modules, regions }, session.generation + 1⟩
      else session
  | .runs memory => { session with view := { session.view with memory } }

/-- A parse on its way, from the first section of its call on. -/
structure Parse where
  base : Nat
  /-- The generation that the call has read. -/
  generation : Nat
  /-- Bookkeeping: the generation of the session when the first section ended. -/
  begun : Nat
  /-- Bookkeeping: the session as each read met it. -/
  met : List Session := []

/-- Where a call stands: what it does next. -/
inductive Stage
  | attached (base : Nat)
  | generation (base : Nat)
  /-- The first section. -/
  | lookup (base generation : Nat)
  /-- The reads, and then the comparison in the second section. -/
  | parse (parse : Parse) (rest : Reading (Result (Option (List ExportEntry))))
  /-- The rest of the second section, where the session had the call's generation. -/
  | store (parse : Parse) (ended : Nat) (result : List ExportEntry)

inductive Progress
  | pending (stage : Stage)
  | finished (reply : Result (List ExportEntry))

/-- A parse whose result went into the cache, and the session's generation in the second
section. -/
structure Kept where
  parse : Parse
  ended : Nat
  result : List ExportEntry

/-- A result out of the cache, and the generation that the call had read. -/
structure Served where
  base : Nat
  generation : Nat
  result : List ExportEntry

/-- The session, the resolver, and the call each thread has in progress. -/
structure Shared where
  session : Session
  cache : Cache := {}
  /-- The thread that has `cacheMutex_` between two of its steps. -/
  holder : Option Nat := none
  calls : TreeMap Nat Stage := ∅
  /-- Bookkeeping: the parses that were kept. -/
  kept : List Kept := []
  /-- Bookkeeping: what was served out of the cache. -/
  served : List Served := []

/-- The cache as a call of a generation finds it: emptied, unless it is of that generation. -/
def opened (generation : Nat) (cache : Cache) : Cache :=
  if generation ≠ cache.generation then ⟨generation, []⟩ else cache

section Steps

variable (sort : List ExportEntry → List ExportEntry)

/-- The first section, when the lock is free. -/
def lookup (base generation : Nat) (s : Shared) : Shared × Progress :=
  match find baseOrder base (opened generation s.cache).modules with
  | some cached =>
      ({ s with
          cache := opened generation s.cache
          served := s.served ++ [⟨base, generation, cached⟩] },
        .finished (.ok cached))
  | none =>
      ({ s with cache := opened generation s.cache },
        .pending (.parse ⟨base, generation, s.session.generation, []⟩ (parsing sort base)))

/-- The second section up to the comparison, when the lock is free. -/
def agree (thread : Nat) (parse : Parse) (result : List ExportEntry) (s : Shared) :
    Shared × Progress :=
  if s.session.generation = parse.generation then
    ({ s with holder := some thread }, .pending (.store parse s.session.generation result))
  else (s, .finished (.ok result))

/-- The rest of the second section. -/
def store (parse : Parse) (ended : Nat) (result : List ExportEntry) (s : Shared) : Shared :=
  { s with
    cache := ⟨parse.generation, assign baseOrder parse.base result s.cache.modules⟩
    holder := none
    kept := s.kept ++ [⟨parse, ended, result⟩] }

/-- One more step of a call. A section waits for the lock. -/
def advance (thread : Nat) (s : Shared) : Stage → Shared × Progress
  | .attached base =>
      if !s.session.view.attached then (s, .finished (fail "No target process is attached."))
      else (s, .pending (.generation base))
  | .generation base => (s, .pending (.lookup base s.session.generation))
  | .lookup base generation =>
      if s.holder.isSome then (s, .pending (.lookup base generation))
      else lookup sort base generation s
  | .parse parse (.act effect next) =>
      ({ s with session := { s.session with view := effect s.session.view } },
        .pending (.parse { parse with met := parse.met ++ [s.session] } (next s.session.view)))
  | .parse _ (.done (.error failure)) => (s, .finished (.error failure))
  | .parse _ (.done (.ok none)) => (s, .finished (.ok []))
  | .parse parse (.done (.ok (some result))) =>
      if s.holder.isSome then (s, .pending (.parse parse (.done (.ok (some result)))))
      else agree thread parse result s
  | .store parse ended result => (store parse ended result s, .finished (.ok result))

inductive Event
  | begin (thread base : Nat)
  | resume (thread : Nat)
  | change (change : Change)

def proceed (thread : Nat) (calls : TreeMap Nat Stage) : Progress → TreeMap Nat Stage
  | .pending stage => calls.insert thread stage
  | .finished _ => calls.erase thread

/-- What a step of a call leaves. -/
def settle (thread : Nat) (next : Shared × Progress) : Shared :=
  { next.1 with calls := proceed thread next.1.calls next.2 }

/-- A thread is in one call at a time. -/
def step (s : Shared) : Event → Shared
  | .begin thread base =>
      if (s.calls[thread]?).isSome then s
      else { s with calls := s.calls.insert thread (.attached base) }
  | .resume thread =>
      match s.calls[thread]? with
      | none => s
      | some stage => settle thread (advance sort thread s stage)
  | .change change => { s with session := s.session.change change }

/-- A call that is left alone from a stage on comes to its reply. -/
inductive Completes (thread : Nat) : Shared → Stage → Shared → Result (List ExportEntry) → Prop
  | returns {s after : Shared} {stage : Stage} {reply : Result (List ExportEntry)}
      (last : advance sort thread s stage = (after, .finished reply)) :
      Completes thread s stage after reply
  | goes {s next after : Shared} {stage later : Stage} {reply : Result (List ExportEntry)}
      (first : advance sort thread s stage = (next, .pending later))
      (rest : Completes thread next later after reply) : Completes thread s stage after reply

end Steps

variable {sort : List ExportEntry → List ExportEntry} {thread : Nat}

/-- The reads of a call that is left alone. -/
theorem completes_reads {rest : Reading (Result (Option (List ExportEntry)))} {s : Shared}
    {parse : Parse} {reply : Result (List ExportEntry)} {meets : Shared → Prop}
    (ends : ∀ same : Parse, same.base = parse.base → same.generation = parse.generation →
      ∃ after, Completes sort thread
        { s with session := { s.session with view := (rest.finish s.session.view).1 } }
        (.parse same (.done (rest.finish s.session.view).2)) after reply ∧ meets after) :
    ∃ after, Completes sort thread s (.parse parse rest) after reply ∧ meets after := by
  induction rest generalizing s parse with
  | done outcome => exact ends parse rfl rfl
  | act effect next ih =>
      have later : ∃ after, Completes sort thread
          { s with session := { s.session with view := effect s.session.view } }
          (.parse { parse with met := parse.met ++ [s.session] } (next s.session.view))
          after reply ∧ meets after := by
        apply ih
        exact fun same base generation => ends same base generation
      obtain ⟨after, completes, holds⟩ := later
      exact ⟨after, .goes rfl completes, holds⟩

/-- `exports` by what it finds in the cache and what it then reads. -/
theorem exports_eq (library : Library) {view : TargetView} (attached : view.attached = true)
    (generation base : Nat) (cache : Cache) :
    exports library view generation base cache =
      match find baseOrder base (opened generation cache).modules with
      | some cached => (opened generation cache, .ok cached)
      | none =>
          match readTables view base with
          | .error failure => (opened generation cache, .error failure)
          | .ok none => (opened generation cache, .ok [])
          | .ok (some tables) =>
              (⟨generation, assign baseOrder base (parsed view library base tables)
                (opened generation cache).modules⟩, .ok (parsed view library base tables)) := by
  rw [exports, attached]
  rfl

/-- The rest of a call that is left alone, from the first section on. -/
theorem completes_lookup {library : Library} (sorts : library.SortsBy sort) (thread : Nat)
    {s : Shared} (attached : s.session.view.attached = true) (free : s.holder = none)
    (base : Nat) :
    let whole := exports library s.session.view s.session.generation base s.cache
    ∃ after, Completes sort thread s (.lookup base s.session.generation) after whole.2 ∧
      after.cache = whole.1 ∧ after.session = s.session ∧ after.holder = none := by
  intro whole
  have answer : whole = _ := exports_eq library attached _ _ _
  have first : advance sort thread s (.lookup base s.session.generation) =
      lookup sort base s.session.generation s := by
    rw [advance, free]
    rfl
  rw [lookup] at first
  cases found : find baseOrder base (opened s.session.generation s.cache).modules with
  | some cached =>
      rw [found] at answer first
      rw [answer]
      exact ⟨_, .returns first, rfl, rfl, free⟩
  | none =>
      rw [found] at answer first
      dsimp only at answer first
      have reads : (parsing sort base).finish s.session.view = _ :=
        finish_parsing s.session.view sorts base
      have rest : ∃ after, Completes sort thread
          { s with cache := opened s.session.generation s.cache }
          (.parse ⟨base, s.session.generation, s.session.generation, []⟩ (parsing sort base))
          after whole.2 ∧
            after.cache = whole.1 ∧ after.session = s.session ∧ after.holder = none := by
        apply completes_reads
        intro same isBase isGeneration
        dsimp only at isBase isGeneration ⊢
        rw [reads]
        cases read : readTables s.session.view base with
        | error failure =>
            rw [read] at answer
            rw [answer]
            exact ⟨_, .returns rfl, rfl, rfl, free⟩
        | ok tables =>
            rw [read] at answer
            cases tables with
            | none =>
                rw [answer]
                exact ⟨_, .returns rfl, rfl, rfl, free⟩
            | some tables =>
                dsimp only at answer
                rw [answer]
                have agrees : advance sort thread
                    { s with cache := opened s.session.generation s.cache }
                    (.parse same (.done (.ok (some (parsed s.session.view library base tables))))) =
                    ({ s with
                        cache := opened s.session.generation s.cache
                        holder := some thread },
                      .pending (.store same s.session.generation
                        (parsed s.session.view library base tables))) := by
                  rw [advance, free]
                  exact if_pos isGeneration.symm
                refine ⟨_, .goes agrees (.returns rfl), ?_, rfl, rfl⟩
                rw [← isGeneration, ← isBase]
                rfl
      obtain ⟨after, completes, facts⟩ := rest
      exact ⟨after, .goes first completes, facts⟩

/-- A call that nobody comes between is `exports`. -/
theorem completes_exports {library : Library} (sorts : library.SortsBy sort) (thread : Nat)
    {s : Shared} (free : s.holder = none) (base : Nat) :
    let whole := exports library s.session.view s.session.generation base s.cache
    ∃ after, Completes sort thread s (.attached base) after whole.2 ∧
      after.cache = whole.1 ∧ after.session = s.session ∧ after.holder = none := by
  intro whole
  by_cases attached : s.session.view.attached = true
  · obtain ⟨after, completes, facts⟩ := completes_lookup sorts thread attached free base
    have goes : advance sort thread s (.attached base) = (s, .pending (.generation base)) := by
      rw [advance, attached]
      rfl
    exact ⟨after, .goes goes (.goes rfl completes), facts⟩
  · have refused : whole = (s.cache, fail "No target process is attached.") := by
      show exports _ _ _ _ _ = _
      rw [exports, Bool.eq_false_iff.mpr attached]
      rfl
    have returns : advance sort thread s (.attached base) =
        (s, .finished (fail "No target process is attached.")) := by
      rw [advance, Bool.eq_false_iff.mpr attached]
      rfl
    rw [refused]
    exact ⟨s, .returns returns, rfl, rfl, free⟩

end PointerLab.ExportResolver.Calls
