import PointerLab.Injector
import PointerLab.Leases

set_option autoImplicit false

/- Whoever else injects, attaches or detaches meanwhile: the path that a remote thread was given
stays where it is for as long as the thread runs, and a code that is returned is the thread's. -/
namespace PointerLab.Injector

open Domain Std Runs Leases

section Paths

variable {Code Byte : Type}

theorem getElem?_flatMap_even (units : List Code) (low high : Code → Byte) (place : Nat) :
    (units.flatMap fun unit => [low unit, high unit])[2 * place]? = units[place]?.map low := by
  induction units generalizing place with
  | nil => simp
  | cons unit rest ih =>
      cases place with
      | zero => rfl
      | succ place =>
          rw [List.flatMap_cons, List.getElem?_cons_succ, ← ih place]
          rfl

theorem getElem?_flatMap_odd (units : List Code) (low high : Code → Byte) (place : Nat) :
    (units.flatMap fun unit => [low unit, high unit])[2 * place + 1]? =
      units[place]?.map high := by
  induction units generalizing place with
  | nil => simp
  | cons unit rest ih =>
      cases place with
      | zero => rfl
      | succ place =>
          rw [List.flatMap_cons, List.getElem?_cons_succ, ← ih place]
          rfl

end Paths

theorem length_pathBytes (path : WideText) : (pathBytes path).length = (path.length + 1) * 2 := by
  unfold pathBytes
  induction path with
  | nil => rfl
  | cons unit rest ih =>
      rw [List.cons_append, List.flatMap_cons, List.length_append, ih]
      simp only [List.length_cons, List.length_nil]
      omega

/-- The path and its null fit into the block. -/
theorem length_pathBytes_le (path : WideText) : (pathBytes path).length ≤ blockSize path := by
  rw [length_pathBytes, blockSize]
  omega

theorem unit_of_bytes (unit : UInt16) :
    UInt16.ofNat ((UInt8.ofNat unit.toNat).toNat +
      0x100 * (UInt8.ofNat (unit.toNat / 0x100)).toNat) = unit := by
  have small : unit.toNat < 2 ^ 16 := unit.toNat_lt
  apply UInt16.toNat_inj.mp
  rw [UInt16.toNat_ofNat', UInt8.toNat_ofNat', UInt8.toNat_ofNat']
  omega

/-- A path in memory reads back, unit by unit. -/
theorem unitAt_path {path : WideText} {memory : Nat → Option UInt8} {base : Nat}
    (loaded : ∀ index byte, (pathBytes path)[index]? = some byte →
      memory (base + index) = some byte)
    {place : Nat} {unit : UInt16} (there : (path ++ [0])[place]? = some unit) :
    unitAt memory (base + 2 * place) = some unit := by
  have low := loaded (2 * place) (UInt8.ofNat unit.toNat) (by
    rw [pathBytes, getElem?_flatMap_even, there]
    rfl)
  have high := loaded (2 * place + 1) (UInt8.ofNat (unit.toNat / 0x100)) (by
    rw [pathBytes, getElem?_flatMap_odd, there]
    rfl)
  rw [← Nat.add_assoc] at high
  simp only [unitAt, low, high, unit_of_bytes]

/-- The unit behind what has been read: the next one, or the null that ends the path. -/
theorem next_unit {path read : WideText} (part : read <+: cString path) :
    ∃ unit, (path ++ [0])[read.length]? = some unit ∧
      (unit = 0 → read = cString path) ∧ (unit ≠ 0 → read ++ [unit] <+: cString path) := by
  obtain ⟨rest, whole⟩ := part
  induction path generalizing read with
  | nil =>
      have empty : read = [] := (List.append_eq_nil_iff.mp whole).1
      subst empty
      exact ⟨0, rfl, fun _ => rfl, fun nonzero => absurd rfl nonzero⟩
  | cons first later ih =>
      rw [cString, List.takeWhile_cons] at whole
      by_cases null : first = 0
      · subst null
        have empty : read = [] := (List.append_eq_nil_iff.mp whole).1
        subst empty
        exact ⟨0, rfl, fun _ => rfl, fun nonzero => absurd rfl nonzero⟩
      · have string : cString (first :: later) = first :: cString later := by
          simp [cString, null]
        rw [string]
        cases read with
        | nil => exact ⟨first, rfl, fun zero => absurd zero null, fun _ => ⟨cString later, rfl⟩⟩
        | cons head read =>
            simp only [ne_eq, null, not_false_eq_true, decide_true, if_true, List.cons_append,
              List.cons.injEq] at whole
            obtain ⟨unit, there, ends, goes⟩ := ih whole.2
            refine ⟨unit, there, fun zero => ?_, fun nonzero => ?_⟩
            · rw [whole.1, ends zero]
            · rw [List.cons_append, whole.1]
              exact List.cons_prefix_cons.mpr ⟨rfl, goes nonzero⟩

/-- What a remote thread has read so far is what it was asked to load. -/
structure Thread.Faithful (path : WideText) (thread : Thread) : Prop where
  mapped : thread.reading ≠ .faulted
  part : thread.read <+: cString path
  whole : thread.reading = .whole → thread.read = cString path

/-- The buffer that somebody still needs: the call, or the thread behind it. -/
def Injection.buffer (injection : Injection) : Option Nat :=
  match injection.stage.buffer with
  | some base => some base
  | none =>
      match injection.thread with
      | some thread => if thread.exit.isNone then some thread.parameter else none
      | none => none

/-- The path has been written. -/
def Stage.loaded : Stage → Prop
  | .writing _ _ | .abandoning _ _ => False
  | _ => True

/-- The memory of all processes. -/
def Shared.memory (s : Shared) (place : Nat × Nat) : Option UInt8 :=
  (s.targets place.1).memory place.2

def block (process base : Nat) (path : WideText) : Set (Nat × Nat) :=
  fun place => place.1 = process ∧ base ≤ place.2 ∧ place.2 < base + blockSize path

/-- A block that is mapped, and once it is written holds the path. -/
structure Holds (process base : Nat) (path : WideText) (loaded : Prop)
    (memory : Nat × Nat → Option UInt8) : Prop where
  mapped : ∀ place ∈ block process base path, memory place ≠ none
  bytes : loaded → ∀ index byte, (pathBytes path)[index]? = some byte →
    memory (process, base + index) = some byte

theorem mem_block_of_byte (process base : Nat) {index : Nat} {path : WideText} {byte : UInt8}
    (inside : (pathBytes path)[index]? = some byte) :
    (process, base + index) ∈ block process base path := by
  have short := List.getElem?_eq_some_iff.mp inside
  have fits := length_pathBytes_le path
  refine ⟨rfl, Nat.le_add_right base index, ?_⟩
  have small : index < (pathBytes path).length := short.1
  show base + index < base + blockSize path
  omega

def buffered (process base : Nat) (path : WideText) (loaded : Prop) :
    Lease (Nat × Nat) (Option UInt8) where
  holds := block process base path
  fits := Holds process base path loaded
  looks _ _ same holds :=
    { mapped := fun place inside => same inside ▸ holds.mapped place inside
      bytes := fun written index byte inside =>
        same (mem_block_of_byte process base inside) ▸ holds.bytes written index byte inside }

/-- What a call relies on, or the thread that it has left behind. -/
def Injection.lease (alive : Bool) (injection : Injection) : Lease (Nat × Nat) (Option UInt8) :=
  match injection.buffer with
  | none => Lease.none
  | some base =>
      if alive then
        buffered injection.process base injection.dllPath injection.stage.loaded
      else Lease.none

def Shared.lease (s : Shared) (call : Nat) : Lease (Nat × Nat) (Option UInt8) :=
  match s.calls[call]? with
  | none => Lease.none
  | some injection => injection.lease (s.targets injection.process).alive

/-- The target and the other tools of Pointer Lab do not touch the path of an injection. -/
def LeavesAlone (s : Shared) : Event → Prop
  | .changes process memory =>
      ∀ call address, (process, address) ∈ (s.lease call).holds →
        memory address = (s.targets process).memory address
  | _ => True

/-- The thread that a call has at a stage. -/
def Stands (thread : Option Thread) : Stage → Prop
  | .resolving | .allocating _ | .writing _ _ | .abandoning _ _ | .starting _ _ => thread = none
  | .waiting base => ∃ running, thread = some running ∧ running.parameter = base
  | .exited base => ∃ ended, thread = some ended ∧ ended.parameter = base ∧ ended.exit ≠ none
  | .releasing base code =>
      ∃ ended, thread = some ended ∧ ended.parameter = base ∧ ended.exit = some code
  | .returned => True

/-- Where a call that has come so far will start its thread. -/
def Stage.start : Stage → Option Nat
  | .allocating start | .writing start _ | .starting start _ => some start
  | _ => none

structure Fine (own : Own) (target : Target) (injection : Injection) : Prop where
  stands : Stands injection.thread injection.stage
  starts : ∀ start, injection.stage.start = some start →
    startAddress own target.wow64 injection.loadLibrary = .ok start
  thread : ∀ thread, injection.thread = some thread →
    thread.Faithful injection.dllPath ∧ (target.alive = false → thread.exit ≠ none) ∧
      startAddress own target.wow64 injection.loadLibrary = .ok thread.start

/-- A code that is returned was the exit code of the call's thread. -/
def Ended (code : Nat) (injection : Injection) : Prop :=
  injection.stage = .returned ∧ ∃ thread, injection.thread = some thread ∧ thread.exit = some code

structure Sound (own : Own) (s : Shared) : Prop where
  fine : ∀ (call : Nat) (injection : Injection), s.calls[call]? = some injection →
    Fine own (s.targets injection.process) injection
  safe : Safe s.lease s.memory
  replies : ∀ call code, (call, .ok code) ∈ s.replies →
    ∃ injection, s.calls[call]? = some injection ∧ Ended code injection

variable {own : Own} {s after : Shared} {call : Nat} {injection later : Injection}

/-- A call does not care for what else becomes of its target. -/
theorem Fine.target {target changed : Target} (fine : Fine own target injection)
    (alive : changed.alive = target.alive) (wow64 : changed.wow64 = target.wow64) :
    Fine own changed injection := by
  refine ⟨fine.stands, fun start there => ?_, fun thread there => ?_⟩
  · rw [wow64]
    exact fine.starts start there
  · rw [wow64, alive]
    exact fine.thread thread there

theorem notMem_none (place : Nat × Nat) :
    place ∉ (Lease.none : Lease (Nat × Nat) (Option UInt8)).holds :=
  Set.notMem_empty place

/-- A call holds places in its own target. -/
theorem process_of_mem {alive : Bool} {place : Nat × Nat}
    (held : place ∈ (injection.lease alive).holds) : place.1 = injection.process := by
  unfold Injection.lease at held
  split at held
  · exact absurd held (notMem_none place)
  · split at held
    · exact held.1
    · exact absurd held (notMem_none place)

/-- What is held is mapped. -/
theorem Sound.held (sound : Sound own s) {place : Nat × Nat}
    (inside : place ∈ (s.lease call).holds) : s.memory place ≠ none := by
  have fits := sound.safe.fit call
  revert inside fits
  unfold Shared.lease
  split
  · exact fun inside => absurd inside (notMem_none place)
  · unfold Injection.lease
    split
    · exact fun inside => absurd inside (notMem_none place)
    · split
      · exact fun inside fits => Holds.mapped fits place inside
      · exact fun inside => absurd inside (notMem_none place)

/-- A step of one call, or of its thread: what it changes in memory it holds, or was free. -/
theorem Sound.acts (sound : Sound own s)
    (alive : ∀ process, (after.targets process).alive = (s.targets process).alive)
    (wow64 : ∀ process, (after.targets process).wow64 = (s.targets process).wow64)
    (calls : after.calls = s.calls.insert call later)
    (changed : ∀ place, after.memory place ≠ s.memory place →
      place ∈ (s.lease call).holds ∨ s.memory place = none)
    (holds : ∀ place ∈ (later.lease (s.targets later.process).alive).holds,
      place ∈ (s.lease call).holds ∨ s.memory place = none)
    (fits : (later.lease (s.targets later.process).alive).fits after.memory)
    (fine : Fine own (s.targets later.process) later)
    (replies : ∀ other code, (other, .ok code) ∈ after.replies →
      (other ≠ call ∧ (other, .ok code) ∈ s.replies) ∨ (other = call ∧ Ended code later)) :
    Sound own after := by
  have mine : after.lease call = later.lease (s.targets later.process).alive := by
    unfold Shared.lease
    rw [calls, Tables.getElem?_insert, if_pos rfl]
    simp only [alive]
  have others : ∀ other, other ≠ call → after.lease other = s.lease other := by
    intro other different
    unfold Shared.lease
    rw [calls, Tables.getElem?_insert, if_neg different]
    simp only [alive]
  refine ⟨fun other injection called => ?_, ?_, fun other code returned => ?_⟩
  · rw [calls] at called
    cases Tables.eq_some_of_insert called with
    | inl here => exact (here.2 ▸ fine).target (alive _) (wow64 _)
    | inr elsewhere =>
        exact (sound.fine other injection elsewhere.2).target (alive _) (wow64 _)
  · apply sound.safe.act call others
    · intro other different place held
      by_contra differs
      cases changed place (Ne.symm differs) with
      | inl own =>
          exact Set.disjoint_left.mp (sound.safe.apart other call different) held own
      | inr free => exact sound.held held free
    · intro other different
      rw [mine, Set.disjoint_left]
      intro place inside held
      cases holds place inside with
      | inl own =>
          exact Set.disjoint_left.mp (sound.safe.apart other call different) held own
      | inr free => exact sound.held held free
    · rw [mine]
      exact fits
  · rw [calls, Tables.getElem?_insert]
    cases replies other code returned with
    | inl elsewhere =>
        rw [if_neg elsewhere.1]
        exact sound.replies other code elsewhere.2
    | inr here =>
        rw [if_pos here.1]
        exact ⟨later, rfl, here.2⟩

/-- The stage that a call comes to. -/
def Next.stage : Next → Stage
  | .goes stage => stage
  | .returns _ => .returned

/-- The same calls in the same targets, whatever is in memory and in the log. -/
structure Alike (s middle : Shared) : Prop where
  calls : middle.calls = s.calls
  replies : middle.replies = s.replies
  alive : ∀ process, (middle.targets process).alive = (s.targets process).alive
  wow64 : ∀ process, (middle.targets process).wow64 = (s.targets process).wow64

theorem alike_refl (s : Shared) : Alike s s := ⟨rfl, rfl, fun _ => rfl, fun _ => rfl⟩

theorem alike_warn (message : String) (s : Shared) : Alike s (warn message s) :=
  ⟨rfl, rfl, fun _ => rfl, fun _ => rfl⟩

theorem alike_remember (process : Nat) (memory : Nat → Option UInt8) (s : Shared) :
    Alike s (remember process memory s) := by
  unfold remember
  split
  · refine ⟨rfl, rfl, fun other => ?_, fun other => ?_⟩
    · by_cases here : other = process
      · subst here
        simp only [Function.update_self]
      · simp only [Function.update_of_ne here]
    · by_cases here : other = process
      · subst here
        simp only [Function.update_self]
      · simp only [Function.update_of_ne here]
  · exact alike_refl s

theorem memory_remember {process : Nat} (alive : (s.targets process).alive = true)
    (memory : Nat → Option UInt8) (place : Nat × Nat) :
    (remember process memory s).memory place =
      if place.1 = process then memory place.2 else s.memory place := by
  rw [remember, if_pos alive]
  unfold Shared.memory
  by_cases here : place.1 = process
  · rw [if_pos here]
    simp only [here, Function.update_self]
  · rw [if_neg here]
    simp only [Function.update_of_ne here]

theorem remember_dead {process : Nat} (dead : (s.targets process).alive = false)
    (memory : Nat → Option UInt8) : remember process memory s = s := by
  rw [remember, if_neg (by simp [dead])]

theorem Sound.settles (sound : Sound own s) (called : s.calls[call]? = some injection)
    (busy : injection.stage ≠ .returned) {ready : Injection} {middle : Shared} (next : Next)
    (alike : Alike s middle)
    (changed : ∀ place, middle.memory place ≠ s.memory place →
      place ∈ (s.lease call).holds ∨ s.memory place = none)
    (holds : ∀ place ∈ ({ ready with stage := next.stage }.lease
      (s.targets ready.process).alive).holds,
      place ∈ (s.lease call).holds ∨ s.memory place = none)
    (fits : ({ ready with stage := next.stage }.lease (s.targets ready.process).alive).fits
      middle.memory)
    (fine : Fine own (s.targets ready.process) { ready with stage := next.stage })
    (ended : ∀ code, next = .returns (.ok code) →
      ∃ thread, ready.thread = some thread ∧ thread.exit = some code) :
    Sound own (settle call ready middle next) := by
  have none_yet : ∀ other code, (other, .ok code) ∈ s.replies → other ≠ call := by
    intro other code returned here
    obtain ⟨before, there, stage, -⟩ := sound.replies other code returned
    rw [here, called] at there
    exact busy (Option.some.inj there ▸ stage)
  have calls : middle.calls.insert call { ready with stage := next.stage } =
      s.calls.insert call { ready with stage := next.stage } := by rw [alike.calls]
  cases next with
  | goes stage =>
      refine sound.acts alike.alive alike.wow64 calls changed holds fits fine ?_
      intro other code returned
      have before : (other, .ok code) ∈ s.replies := alike.replies ▸ returned
      exact .inl ⟨none_yet other code before, before⟩
  | returns reply =>
      refine sound.acts alike.alive alike.wow64 calls changed holds fits fine ?_
      intro other code returned
      have returned : (other, .ok code) ∈ middle.replies ++ [(call, reply)] := returned
      rw [alike.replies, List.mem_append, List.mem_singleton, Prod.mk.injEq] at returned
      cases returned with
      | inl before => exact .inl ⟨none_yet other code before, before⟩
      | inr now => exact .inr ⟨now.1, rfl, ended code (congrArg Next.returns now.2.symm)⟩

/-- Who keeps what it holds, or gives it up, finds what it needs in a memory that stays. -/
theorem Sound.keeps (sound : Sound own s) {lease : Lease (Nat × Nat) (Option UInt8)}
    (kept : lease = s.lease call ∨ lease = Lease.none) :
    (∀ place ∈ lease.holds, place ∈ (s.lease call).holds ∨ s.memory place = none) ∧
      lease.fits s.memory := by
  rcases kept with rfl | rfl
  · exact ⟨fun _ inside => .inl inside, sound.safe.fit call⟩
  · exact ⟨fun place inside => absurd inside (notMem_none place), trivial⟩

/-- A step that changes nothing in memory, and keeps the buffer or needs none any more. -/
theorem Sound.passes (sound : Sound own s) (called : s.calls[call]? = some injection)
    (busy : injection.stage ≠ .returned) {ready : Injection} {middle : Shared} (next : Next)
    (alike : Alike s middle) (memory : middle.memory = s.memory)
    (lease : { ready with stage := next.stage }.lease (s.targets ready.process).alive =
        s.lease call ∨
      { ready with stage := next.stage }.lease (s.targets ready.process).alive = Lease.none)
    (fine : Fine own (s.targets ready.process) { ready with stage := next.stage })
    (ended : ∀ code, next = .returns (.ok code) →
      ∃ thread, ready.thread = some thread ∧ thread.exit = some code) :
    Sound own (settle call ready middle next) := by
  have kept := sound.keeps lease
  rw [← memory] at kept
  apply sound.settles called busy next alike _ _ _ fine ended
  · exact fun place differs => absurd (congrFun memory place) differs
  · exact memory ▸ kept.1
  · exact kept.2

theorem lease_called (called : s.calls[call]? = some injection) :
    s.lease call = injection.lease (s.targets injection.process).alive := by
  unfold Shared.lease
  rw [called]

/-- A call that has its buffer holds it while its target is alive. -/
theorem lease_buffer {base : Nat} (called : s.calls[call]? = some injection)
    (buffer : injection.stage.buffer = some base)
    (alive : (s.targets injection.process).alive = true) :
    s.lease call =
      buffered injection.process base injection.dllPath injection.stage.loaded := by
  rw [lease_called called]
  unfold Injection.lease Injection.buffer
  rw [buffer, alive]
  rfl

theorem lease_dead (injection : Injection) : injection.lease false = Lease.none := by
  unfold Injection.lease
  split <;> rfl

/-- A call that has returned, and left no thread that runs, relies on nothing. -/
theorem lease_returned (alive : Bool) (stage : injection.stage = .returned)
    (finished : ∀ thread, injection.thread = some thread → thread.exit ≠ none) :
    injection.lease alive = Lease.none := by
  have idle : injection.buffer = none := by
    unfold Injection.buffer
    rw [stage]
    cases there : injection.thread with
    | none => rfl
    | some thread =>
        have ended : thread.exit.isNone = false := by
          cases exit : thread.exit with
          | none => exact absurd exit (finished thread there)
          | some code => rfl
        simp only [Stage.buffer, ended, Bool.false_eq_true, if_false]
  unfold Injection.lease
  rw [idle]

theorem injectLoadLibraryW_cases (own : Own) (wow64 : Bool) (dllPath : WideText)
    (loadLibrary : Nat) :
    (∃ failure, injectLoadLibraryW own wow64 dllPath loadLibrary = .returns (.error failure)) ∨
      ∃ start, injectLoadLibraryW own wow64 dllPath loadLibrary = .goes (.allocating start) ∧
        startAddress own wow64 loadLibrary = .ok start := by
  unfold injectLoadLibraryW
  split
  · exact .inl ⟨_, rfl⟩
  · cases found : startAddress own wow64 loadLibrary with
    | error failure => exact .inl ⟨failure, rfl⟩
    | ok start => exact .inr ⟨start, rfl, rfl⟩

theorem Sound.injects (sound : Sound own s) (called : s.calls[call]? = some injection)
    (stage : injection.stage = .resolving) {middle : Shared} (alike : Alike s middle)
    (memory : middle.memory = s.memory) (address : Nat) :
    Sound own (settle call { injection with loadLibrary := address } middle
      (injectLoadLibraryW own (s.targets injection.process).wow64 injection.dllPath address)) := by
  have stands := (sound.fine call injection called).stands
  rw [stage] at stands
  have no_thread : injection.thread = none := stands
  have busy : injection.stage ≠ .returned := by simp [stage]
  have threadless : ∀ thread, injection.thread ≠ some thread := by simp [no_thread]
  obtain ⟨failure, next⟩ | ⟨start, next, found⟩ :=
    injectLoadLibraryW_cases own (s.targets injection.process).wow64 injection.dllPath address
  · rw [next]
    apply sound.passes called busy _ alike memory (.inr (lease_returned _ rfl _))
    · exact ⟨trivial, fun _ there => absurd there (by simp [Next.stage, Stage.start]),
        fun thread there => absurd there (threadless thread)⟩
    · exact fun code ok => absurd ok (by simp)
    · exact fun thread there => absurd there (threadless thread)
  · rw [next]
    apply sound.passes called busy _ alike memory
    · right
      unfold Injection.lease Injection.buffer
      simp only [Next.stage, Stage.buffer, no_thread]
    · refine ⟨no_thread, fun other there => ?_,
        fun thread there => absurd there (threadless thread)⟩
      rw [← Option.some.inj there]
      exact found
    · exact fun code ok => absurd ok (by simp)

theorem busy_of_buffer {base : Nat} (buffer : injection.stage.buffer = some base) :
    injection.stage ≠ .returned := by
  intro stage
  rw [stage] at buffer
  contradiction

theorem Fine.returned {target : Target} (fine : Fine own target injection) :
    Fine own target { injection with stage := .returned } :=
  ⟨trivial, fun _ there => absurd there (by simp [Stage.start]), fine.thread⟩

/-- Memory that a call writes is its own, or was free. -/
theorem Sound.remembers (sound : Sound own s) (called : s.calls[call]? = some injection)
    (busy : injection.stage ≠ .returned) (next : Next)
    (alive : (s.targets injection.process).alive = true) (memory : Nat → Option UInt8)
    (changed : ∀ address, memory address ≠ (s.targets injection.process).memory address →
      (injection.process, address) ∈ (s.lease call).holds ∨
        (s.targets injection.process).memory address = none)
    (holds : ∀ place ∈ ({ injection with stage := next.stage }.lease true).holds,
      place ∈ (s.lease call).holds ∨ s.memory place = none)
    (fits : ({ injection with stage := next.stage }.lease true).fits
      (remember injection.process memory s).memory)
    (fine : Fine own (s.targets injection.process) { injection with stage := next.stage })
    (ended : ∀ code, next = .returns (.ok code) →
      ∃ thread, injection.thread = some thread ∧ thread.exit = some code) :
    Sound own (settle call injection (remember injection.process memory s) next) := by
  apply sound.settles called busy next (alike_remember _ _ s)
  · rintro ⟨process, address⟩ differs
    rw [memory_remember alive] at differs
    by_cases here : process = injection.process
    · subst here
      rw [if_pos rfl] at differs
      exact changed address differs
    · rw [if_neg here] at differs
      exact absurd rfl differs
  · rw [alive]
    exact holds
  · rw [alive]
    exact fits
  · exact fine
  · exact ended

/-- The buffer goes once no thread needs it. -/
theorem Sound.releases (sound : Sound own s) (called : s.calls[call]? = some injection)
    {base : Nat} (buffer : injection.stage.buffer = some base)
    (finished : ∀ thread, injection.thread = some thread → thread.exit ≠ none)
    {reply : Result Nat}
    (ended : ∀ code, reply = .ok code →
      ∃ thread, injection.thread = some thread ∧ thread.exit = some code)
    {answer : Answer} {middle : Shared}
    (released : release own injection base s answer = some middle) :
    Sound own (settle call injection middle (.returns reply)) := by
  have busy := busy_of_buffer buffer
  have fine := (sound.fine call injection called).returned
  have gone : ∀ alive, { injection with stage := .returned }.lease alive = Lease.none :=
    fun alive => lease_returned alive rfl finished
  have ended : ∀ code, Next.returns reply = .returns (.ok code) →
      ∃ thread, injection.thread = some thread ∧ thread.exit = some code := by
    intro code same
    exact ended code (Next.returns.inj same)
  cases answer with
  | succeeds =>
      rw [release, Option.some.injEq] at released
      subst released
      cases alive : (s.targets injection.process).alive with
      | false =>
          rw [remember_dead alive]
          exact sound.passes called busy (.returns reply) (alike_refl s) rfl
            (.inr (gone _)) fine ended
      | true =>
          apply sound.remembers called busy (.returns reply) alive _ _ _ _ fine ended
          · intro address differs
            left
            rw [lease_buffer called buffer alive]
            unfold unmapped at differs
            split at differs
            · rename_i inside
              exact ⟨rfl, inside⟩
            · exact absurd rfl differs
          · intro place inside
            rw [Next.stage, gone] at inside
            exact absurd inside (notMem_none place)
          · rw [Next.stage, gone]
            trivial
  | fails error =>
      rw [release, Option.some.injEq] at released
      subst released
      exact sound.passes called busy (.returns reply) (alike_warn _ s) rfl (.inr (gone _)) fine
        ended
  | _ => exact absurd released (by simp [release])

theorem lease_goes {stage : Stage} {base : Nat} (buffer : stage.buffer = some base) :
    { injection with stage := stage }.lease true =
      buffered injection.process base injection.dllPath stage.loaded := by
  unfold Injection.lease Injection.buffer
  simp only [buffer, if_true]

theorem Sound.allocates (sound : Sound own s) (called : s.calls[call]? = some injection)
    {start base : Nat} (stage : injection.stage = .allocating start)
    (alive : (s.targets injection.process).alive = true)
    (free : ∀ offset < blockSize injection.dllPath,
      (s.targets injection.process).memory (base + offset) = none) :
    Sound own (settle call injection
      (remember injection.process
        (mapped base (blockSize injection.dllPath) (s.targets injection.process).memory) s)
      (.goes (.writing start base))) := by
  have fine := sound.fine call injection called
  have busy : injection.stage ≠ .returned := by simp [stage]
  have free : ∀ address, base ≤ address → address < base + blockSize injection.dllPath →
      (s.targets injection.process).memory address = none := by
    intro address from_ below
    have there := free (address - base) (by omega)
    rwa [Nat.add_sub_cancel' from_] at there
  apply sound.remembers called busy (.goes (.writing start base)) alive
  · intro address differs
    unfold mapped at differs
    split at differs
    · rename_i inside
      exact .inr (free address inside.1 inside.2)
    · exact absurd rfl differs
  · intro place inside
    rw [Next.stage, lease_goes rfl] at inside
    obtain ⟨there, from_, below⟩ := inside
    right
    unfold Shared.memory
    rw [there]
    exact free place.2 from_ below
  · rw [Next.stage, lease_goes rfl]
    refine ⟨fun place inside => ?_, fun loaded => loaded.elim⟩
    rw [memory_remember alive, if_pos inside.1, mapped, if_pos inside.2]
    exact Option.some_ne_none 0
  · have stands := fine.stands
    have starts := fine.starts
    rw [stage] at stands starts
    exact ⟨stands, starts, fine.thread⟩
  · exact fun code ok => absurd ok (by simp)

theorem written_mapped {base address : Nat} {bytes : List UInt8} {memory : Nat → Option UInt8}
    (mapped : memory address ≠ none) : written base bytes memory address ≠ none := by
  unfold written
  split
  · split
    · simpa using mapped
    · exact mapped
  · exact mapped

theorem written_byte {base index : Nat} {bytes : List UInt8} {memory : Nat → Option UInt8}
    {byte : UInt8} (mapped : memory (base + index) ≠ none) (inside : bytes[index]? = some byte) :
    written base bytes memory (base + index) = some byte := by
  obtain ⟨old, there⟩ := Option.ne_none_iff_exists'.mp mapped
  rw [written, if_pos (Nat.le_add_right base index), Nat.add_sub_cancel_left, inside, there]
  rfl

/-- A write that comes to its end, or stops on the way. -/
theorem Sound.writes (sound : Sound own s) (called : s.calls[call]? = some injection)
    {start base : Nat} (stage : injection.stage = .writing start base)
    (alive : (s.targets injection.process).alive = true) {bytes : List UInt8}
    (part : bytes <+: pathBytes injection.dllPath) {later : Stage}
    (buffer : later.buffer = some base)
    (loaded : later.loaded → bytes = pathBytes injection.dllPath)
    (fine : Fine own (s.targets injection.process) { injection with stage := later }) :
    Sound own (settle call injection
      (remember injection.process
        (written base bytes (s.targets injection.process).memory) s) (.goes later)) := by
  have busy : injection.stage ≠ .returned := by simp [stage]
  have mine : s.lease call =
      buffered injection.process base injection.dllPath injection.stage.loaded :=
    lease_buffer called (by rw [stage]; rfl) alive
  have holds : Holds injection.process base injection.dllPath injection.stage.loaded s.memory := by
    have fits := sound.safe.fit call
    rw [mine] at fits
    exact fits
  apply sound.remembers called busy (.goes later) alive _ _ _ _ fine
  · exact fun code ok => absurd ok (by simp)
  · intro address differs
    left
    rw [mine]
    unfold written at differs
    split at differs
    · rename_i from_
      split at differs
      · rename_i byte inside
        obtain ⟨rest, whole⟩ := part
        have there : (pathBytes injection.dllPath)[address - base]? = some byte := by
          rw [← whole, List.getElem?_append_left (List.getElem?_eq_some_iff.mp inside).1]
          exact inside
        have held := mem_block_of_byte injection.process base there
        rwa [Nat.add_sub_cancel' from_] at held
      · exact absurd rfl differs
    · exact absurd rfl differs
  · intro place inside
    rw [Next.stage, lease_goes buffer] at inside
    rw [mine]
    exact .inl inside
  · rw [Next.stage, lease_goes buffer]
    refine ⟨fun place inside => ?_, fun whole index byte inside => ?_⟩
    · rw [memory_remember alive, if_pos inside.1]
      apply written_mapped
      have before := holds.mapped place inside
      rwa [Shared.memory, inside.1] at before
    · rw [memory_remember alive, if_pos rfl, loaded whole]
      exact written_byte (holds.mapped _ (mem_block_of_byte _ _ inside)) inside

/-- A call that goes on with the buffer and the thread that it has. -/
theorem Sound.goes (sound : Sound own s) (called : s.calls[call]? = some injection)
    {base : Nat} {later : Stage} (buffer : injection.stage.buffer = some base)
    (still : later.buffer = some base) (loaded : later.loaded ↔ injection.stage.loaded)
    (stands : Stands injection.thread later) (start : later.start = none) :
    Sound own (settle call injection s (.goes later)) := by
  have fine := sound.fine call injection called
  have busy := busy_of_buffer buffer
  apply sound.passes called busy (.goes later) (alike_refl s) rfl
  · left
    rw [lease_called called]
    unfold Injection.lease Injection.buffer
    simp only [Next.stage, still, buffer, loaded]
  · exact ⟨stands, fun _ there => absurd there (by simp [Next.stage, start]), fine.thread⟩
  · exact fun code ok => absurd ok (by simp)

/-- A thread that runs has its path in the buffer of its call. -/
theorem Fine.running {target : Target} (fine : Fine own target injection)
    (busy : injection.stage ≠ .returned) {thread : Thread}
    (there : injection.thread = some thread) (running : thread.exit = none) :
    injection.stage.buffer = some thread.parameter ∧ injection.stage.loaded := by
  have stands := fine.stands
  cases stage : injection.stage with
  | returned => exact absurd stage busy
  | waiting base =>
      rw [stage] at stands
      obtain ⟨other, same, parameter⟩ := stands
      cases there.symm.trans same
      rw [parameter]
      exact ⟨rfl, trivial⟩
  | exited base =>
      rw [stage] at stands
      obtain ⟨other, same, -, ended⟩ := stands
      cases there.symm.trans same
      exact absurd running ended
  | releasing base code =>
      rw [stage] at stands
      obtain ⟨other, same, -, ended⟩ := stands
      cases there.symm.trans same
      rw [running] at ended
      contradiction
  | _ =>
      rw [stage] at stands
      have no_thread : injection.thread = none := stands
      rw [no_thread] at there
      contradiction

/-- A call that fails leaves its buffer to the thread, if one runs. -/
theorem Sound.fails (sound : Sound own s) (called : s.calls[call]? = some injection)
    (busy : injection.stage ≠ .returned) {middle : Shared} (alike : Alike s middle)
    (memory : middle.memory = s.memory) (failure : Failure) :
    Sound own (settle call injection middle (.returns (.error failure))) := by
  have fine := sound.fine call injection called
  apply sound.passes called busy _ alike memory _ fine.returned
  · exact fun code ok => absurd ok (by simp)
  · by_cases running : ∃ thread, injection.thread = some thread ∧ thread.exit = none
    · obtain ⟨thread, there, running⟩ := running
      obtain ⟨buffer, loaded⟩ := fine.running busy there running
      left
      rw [lease_called called]
      have whole : injection.stage.loaded = True := eq_true loaded
      unfold Injection.lease Injection.buffer
      rw [buffer, whole]
      simp only [Next.stage, Stage.buffer, there, running, Option.isNone_none, if_true,
        Stage.loaded]
    · right
      apply lease_returned _ rfl
      exact fun thread there exit => running ⟨thread, there, exit⟩

theorem Sound.starts (sound : Sound own s) (called : s.calls[call]? = some injection)
    {start base : Nat} (stage : injection.stage = .starting start base)
    (alive : (s.targets injection.process).alive = true) :
    Sound own (settle call { injection with thread := some { start, parameter := base } } s
      (.goes (.waiting base))) := by
  have fine := sound.fine call injection called
  have busy : injection.stage ≠ .returned := by simp [stage]
  apply sound.passes called busy (.goes (.waiting base)) (alike_refl s) rfl
  · left
    rw [lease_called called]
    unfold Injection.lease Injection.buffer
    simp only [Next.stage, Stage.buffer, stage, Stage.loaded]
  · refine ⟨⟨_, rfl, rfl⟩, fun _ there => absurd there (by simp [Next.stage, Stage.start]), ?_⟩
    intro thread there
    rw [← Option.some.inj there]
    have found := fine.starts start (by rw [stage]; rfl)
    exact ⟨⟨by simp, List.nil_prefix, by simp⟩, by simp [alive], found⟩
  · exact fun code ok => absurd ok (by simp)

/-- One more answer to a call, at any stage. -/
theorem Sound.advance (sound : Sound own s) (called : s.calls[call]? = some injection)
    (answer : Answer) : Sound own (advance own call injection s injection.stage answer) := by
  have fine := sound.fine call injection called
  have stands := fine.stands
  cases stage : injection.stage with
  | resolving =>
      cases answer with
      | resolves address => exact sound.injects called stage (alike_refl s) rfl address
      | stops count failure => exact sound.injects called stage (alike_warn _ s) rfl 0
      | _ => exact sound
  | allocating start =>
      cases answer with
      | allocates base =>
          simp only [Injector.advance]
          split
          · rename_i room
            exact sound.allocates called stage room.1 room.2
          · exact sound
      | fails error => exact sound.fails called (by simp [stage]) (alike_refl s) rfl _
      | _ => exact sound
  | writing start base =>
      rw [stage] at stands
      cases answer with
      | succeeds =>
          simp only [Injector.advance]
          split
          · rename_i alive
            exact sound.writes called stage alive (List.prefix_refl _) rfl (fun _ => rfl)
              ⟨stands, fun _ there => fine.starts _ (by rw [stage]; exact there), fine.thread⟩
          · exact sound
      | stops count failure =>
          simp only [Injector.advance]
          cases alive : (s.targets injection.process).alive with
          | true =>
              exact sound.writes called stage alive (List.take_prefix count _) rfl False.elim
                ⟨stands, fun _ there => absurd there (by simp [Stage.start]), fine.thread⟩
          | false =>
              rw [remember_dead alive]
              exact sound.goes called (by rw [stage]; rfl) rfl (by rw [stage]; rfl) stands rfl
      | _ => exact sound
  | abandoning base failure =>
      rw [stage] at stands
      have no_thread : injection.thread = none := stands
      simp only [Injector.advance]
      split
      · rename_i middle released
        exact sound.releases called (by rw [stage]; rfl) (by simp [no_thread]) (by simp) released
      · exact sound
  | starting start base =>
      cases answer with
      | succeeds =>
          simp only [Injector.advance]
          split
          · rename_i alive
            exact sound.starts called stage alive
          · exact sound
      | fails error => exact sound.fails called (by simp [stage]) (alike_warn _ s) rfl _
      | _ => exact sound
  | waiting base =>
      rw [stage] at stands
      cases answer with
      | succeeds =>
          simp only [Injector.advance]
          split
          · rename_i finished
            obtain ⟨thread, there, parameter⟩ := stands
            rw [there] at finished
            have ended : thread.exit ≠ none := Option.isSome_iff_ne_none.mp finished
            exact sound.goes called (by rw [stage]; rfl) rfl (by rw [stage]; rfl)
              ⟨thread, there, parameter, ended⟩ rfl
          · exact sound
      | timesOut => exact sound.fails called (by simp [stage]) (alike_warn _ s) rfl _
      | fails error => exact sound.fails called (by simp [stage]) (alike_warn _ s) rfl _
      | _ => exact sound
  | exited base =>
      rw [stage] at stands
      cases answer with
      | succeeds =>
          obtain ⟨thread, there, parameter, ended⟩ := stands
          simp only [Injector.advance, there, Thread.ended]
          cases exit : thread.exit with
          | none => exact absurd exit ended
          | some code =>
              have later : Sound own (settle call injection s (.goes (.releasing base code))) :=
                sound.goes called (by rw [stage]; rfl) rfl (by rw [stage]; rfl)
                  ⟨thread, there, parameter, exit⟩ rfl
              exact later
      | fails error => exact sound.fails called (by simp [stage]) (alike_warn _ s) rfl _
      | _ => exact sound
  | releasing base code =>
      rw [stage] at stands
      obtain ⟨thread, there, parameter, exit⟩ := stands
      simp only [Injector.advance]
      split
      · rename_i middle released
        apply sound.releases called (by rw [stage]; rfl) _ _ released
        · intro other same
          cases there.symm.trans same
          simp [exit]
        · intro other same
          cases same
          exact ⟨thread, there, exit⟩
      · exact sound
  | returned => cases answer <;> exact sound

/-- A thread that runs reads on in a path that is still there. -/
theorem Thread.Faithful.reads {path : WideText} {thread : Thread} (faithful : thread.Faithful path)
    {memory : Nat → Option UInt8}
    (loaded : thread.exit = none → ∀ index byte, (pathBytes path)[index]? = some byte →
      memory (thread.parameter + index) = some byte) :
    (thread.reads memory).Faithful path := by
  unfold Thread.reads
  split
  · exact faithful
  · rename_i goes
    have running : thread.exit = none := by simpa using (not_or.mp goes).1
    obtain ⟨unit, there, ends, next⟩ := next_unit faithful.part
    rw [unitAt_path (loaded running) there]
    dsimp only
    split
    · rename_i null
      exact ⟨by simp, faithful.part, fun _ => ends null⟩
    · rename_i more
      refine ⟨faithful.mapped, next more, fun whole => ?_⟩
      have going : thread.reading = .going := by simpa using (not_or.mp goes).2
      rw [going] at whole
      contradiction

theorem Sound.thread (sound : Sound own s) (called : s.calls[call]? = some injection)
    {thread : Thread} (there : injection.thread = some thread) (running : thread.exit = none) :
    ∀ index byte, (pathBytes injection.dllPath)[index]? = some byte →
      (s.targets injection.process).memory (thread.parameter + index) = some byte := by
  have fine := sound.fine call injection called
  have alive : (s.targets injection.process).alive = true := by
    by_contra dead
    exact (fine.thread thread there).2.1 (by simpa using dead) running
  have lease : s.lease call =
      buffered injection.process thread.parameter injection.dllPath injection.stage.loaded := by
    rw [lease_called called, alive]
    unfold Injection.lease Injection.buffer
    by_cases stage : injection.stage = .returned
    · simp only [stage, Stage.buffer, there, running, Option.isNone_none, if_true]
    · rw [(fine.running stage there running).1]
      rfl
  have loaded : injection.stage.loaded := by
    by_cases stage : injection.stage = .returned
    · rw [stage]
      trivial
    · exact (fine.running stage there running).2
  have fits := sound.safe.fit call
  rw [lease] at fits
  exact Holds.bytes fits loaded

/-- What no step of a thread changes. -/
structure Thread.Keeps (thread later : Thread) : Prop where
  start : later.start = thread.start
  parameter : later.parameter = thread.parameter
  exit : ∀ code, thread.exit = some code → later.exit = some code

theorem Thread.Keeps.ended {thread later : Thread} (keeps : thread.Keeps later)
    (ended : thread.exit ≠ none) : later.exit ≠ none := by
  obtain ⟨code, exit⟩ := Option.ne_none_iff_exists'.mp ended
  rw [keeps.exit code exit]
  exact Option.some_ne_none code

theorem Thread.keeps_reads (thread : Thread) (memory : Nat → Option UInt8) :
    thread.Keeps (thread.reads memory) := by
  unfold Thread.reads
  split
  · exact ⟨rfl, rfl, fun _ exit => exit⟩
  · split
    · exact ⟨rfl, rfl, fun _ exit => exit⟩
    · split <;> exact ⟨rfl, rfl, fun _ exit => exit⟩

theorem Thread.keeps_exits (thread : Thread) (code : Nat) : thread.Keeps (thread.exits code) := by
  unfold Thread.exits
  split
  · exact ⟨rfl, rfl, fun _ exit => exit⟩
  · rename_i running
    refine ⟨rfl, rfl, fun other exit => ?_⟩
    rw [exit] at running
    exact absurd rfl running

theorem Thread.ended_exits (thread : Thread) (code : Nat) : (thread.exits code).exit ≠ none := by
  unfold Thread.exits
  split
  · rename_i ended
    exact Option.isSome_iff_ne_none.mp ended
  · exact Option.some_ne_none code

theorem Thread.Faithful.exits {path : WideText} {thread : Thread}
    (faithful : thread.Faithful path) (code : Nat) : (thread.exits code).Faithful path := by
  unfold Thread.exits
  split
  · exact faithful
  · exact ⟨faithful.mapped, faithful.part, faithful.whole⟩

theorem Stands.keeps {act : Thread → Thread} {thread : Option Thread} {stage : Stage}
    (stands : Stands thread stage) (keeps : ∀ mine, thread = some mine → mine.Keeps (act mine)) :
    Stands (thread.map act) stage := by
  cases stage with
  | waiting base =>
      obtain ⟨mine, there, parameter⟩ := stands
      exact ⟨act mine, by rw [there]; rfl, (keeps mine there).parameter.trans parameter⟩
  | exited base =>
      obtain ⟨mine, there, parameter, ended⟩ := stands
      exact ⟨act mine, by rw [there]; rfl, (keeps mine there).parameter.trans parameter,
        (keeps mine there).ended ended⟩
  | releasing base code =>
      obtain ⟨mine, there, parameter, exit⟩ := stands
      exact ⟨act mine, by rw [there]; rfl, (keeps mine there).parameter.trans parameter,
        (keeps mine there).exit code exit⟩
  | returned => trivial
  | _ =>
      have no_thread : thread = none := stands
      rw [no_thread]
      exact Option.map_none act

/-- A thread that goes on, or ends, needs no more than before. -/
theorem lease_onThread {act : Thread → Thread} (alive : Bool)
    (keeps : ∀ thread, injection.thread = some thread → thread.Keeps (act thread)) :
    { injection with thread := injection.thread.map act }.lease alive = injection.lease alive ∨
      { injection with thread := injection.thread.map act }.lease alive = Lease.none := by
  cases there : injection.thread with
  | none =>
      left
      unfold Injection.lease Injection.buffer
      simp only [there, Option.map_none]
  | some thread =>
      have kept := keeps thread there
      cases buffer : injection.stage.buffer with
      | some base =>
          left
          unfold Injection.lease Injection.buffer
          simp only [buffer]
      | none =>
          cases exit : (act thread).exit with
          | none =>
              have running : thread.exit = none := by
                by_contra ended
                exact kept.ended ended exit
              left
              unfold Injection.lease Injection.buffer
              simp only [buffer, there, Option.map_some, exit, running, kept.parameter]
          | some code =>
              right
              unfold Injection.lease Injection.buffer
              simp [buffer, exit]

theorem Fine.onThread {target : Target} (fine : Fine own target injection)
    {act : Thread → Thread}
    (keeps : ∀ thread, injection.thread = some thread → thread.Keeps (act thread))
    (faithful : ∀ thread, injection.thread = some thread →
      (act thread).Faithful injection.dllPath) :
    Fine own target { injection with thread := injection.thread.map act } := by
  refine ⟨fine.stands.keeps keeps, fine.starts, fun later there => ?_⟩
  obtain ⟨thread, before, same⟩ := Option.map_eq_some_iff.mp there
  obtain ⟨-, dead, start⟩ := fine.thread thread before
  subst same
  refine ⟨faithful thread before, fun gone => (keeps thread before).ended (dead gone), ?_⟩
  rw [(keeps thread before).start]
  exact start

theorem Sound.onThread (sound : Sound own s) {act : Injection → Thread → Thread}
    (keeps : ∀ injection (thread : Thread), thread.Keeps (act injection thread))
    (faithful : ∀ injection, s.calls[call]? = some injection → ∀ thread,
      injection.thread = some thread → (act injection thread).Faithful injection.dllPath) :
    Sound own (onThread call act s) := by
  unfold Injector.onThread
  split
  · exact sound
  · rename_i injection called
    have fine := sound.fine call injection called
    have keeps : ∀ thread, injection.thread = some thread → thread.Keeps (act injection thread) :=
      fun thread _ => keeps injection thread
    have lease := lease_onThread (s.targets injection.process).alive keeps
    rw [← lease_called called] at lease
    refine sound.acts (fun _ => rfl) (fun _ => rfl) rfl (fun _ differs => absurd rfl differs)
      (sound.keeps lease).1 (sound.keeps lease).2 (fine.onThread keeps (faithful injection called))
      ?_
    intro other code returned
    by_cases here : other = call
    · subst here
      obtain ⟨before, there, stage, thread, mine, exit⟩ := sound.replies other code returned
      rw [called] at there
      cases there
      refine .inr ⟨rfl, stage, act injection thread, ?_, (keeps thread mine).exit code exit⟩
      rw [mine]
      rfl
    · exact .inl ⟨here, returned⟩

theorem Sound.begins (sound : Sound own s) (absent : s.calls[call]? = none) (process : Nat)
    (dllPath : WideText) :
    Sound own { s with calls := s.calls.insert call { process, dllPath } } := by
  refine sound.acts (fun _ => rfl) (fun _ => rfl) rfl (fun _ differs => absurd rfl differs)
    ?_ trivial ⟨rfl, fun _ there => absurd there (by simp [Stage.start]), by simp⟩ ?_
  · exact fun place inside => absurd inside (notMem_none place)
  · intro other code returned
    refine .inl ⟨fun here => ?_, returned⟩
    obtain ⟨before, there, -⟩ := sound.replies other code returned
    rw [here, absent] at there
    contradiction

/-- A process that ends takes its threads with it, and leaves no path to rely on. -/
theorem Sound.ends (sound : Sound own s) (process code : Nat) :
    Sound own (ends process code s) := by
  have calls : ∀ call : Nat, (Injector.ends process code s).calls[call]? =
      s.calls[call]?.map fun injection =>
        if injection.process = process then
          { injection with thread := injection.thread.map (Thread.exits code) }
        else injection := by
    intro call
    rw [Injector.ends, TreeMap.getElem?_map]
  have elsewhere : ∀ other, other ≠ process →
      (Injector.ends process code s).targets other = s.targets other := by
    intro other different
    exact Function.update_of_ne different _ _
  have here : (Injector.ends process code s).targets process =
      { s.targets process with alive := false, memory := fun _ => none } :=
    Function.update_self _ _ _
  refine ⟨fun call injection called => ?_, ?_, fun call exit returned => ?_⟩
  · rw [calls] at called
    obtain ⟨before, there, same⟩ := Option.map_eq_some_iff.mp called
    have fine := sound.fine call before there
    split at same
    · rename_i mine
      subst same
      have later := fine.onThread (fun thread _ => thread.keeps_exits code)
        fun thread present => (fine.thread thread present).1.exits code
      refine ⟨later.stands, ?_, fun thread present => ?_⟩
      · show ∀ start, before.stage.start = some start → _
        rw [mine, here, ← mine]
        exact fine.starts
      · obtain ⟨faithful, -, start⟩ := later.thread thread present
        obtain ⟨old, -, exits⟩ := Option.map_eq_some_iff.mp present
        refine ⟨faithful, fun _ => exits ▸ old.ended_exits code, ?_⟩
        show startAddress own ((Injector.ends process code s).targets before.process).wow64 _ = _
        rw [mine, here, ← mine]
        exact start
    · rename_i other
      subst same
      rw [elsewhere _ other]
      exact fine
  · apply sound.safe.withdraw fun call => ∃ injection,
      s.calls[call]? = some injection ∧ injection.process = process
    · rintro call ⟨injection, called, mine⟩
      unfold Shared.lease
      rw [calls, called, Option.map_some, if_pos mine]
      simp only [mine, here]
      exact lease_dead _
    · intro call other
      unfold Shared.lease
      rw [calls]
      cases called : s.calls[call]? with
      | none => rfl
      | some injection =>
          have different : injection.process ≠ process :=
            fun mine => other ⟨injection, called, mine⟩
          simp only [Option.map_some, if_neg different, elsewhere _ different]
    · intro call other place held
      cases called : s.calls[call]? with
      | none =>
          unfold Shared.lease at held
          rw [called] at held
          exact absurd held (notMem_none place)
      | some injection =>
          have different : injection.process ≠ process :=
            fun mine => other ⟨injection, called, mine⟩
          rw [lease_called called] at held
          unfold Shared.memory
          rw [process_of_mem held, elsewhere _ different]
  · obtain ⟨injection, called, stage, thread, there, ended⟩ := sound.replies call exit returned
    rw [calls, called, Option.map_some]
    split
    · refine ⟨_, rfl, stage, thread.exits code, ?_, (thread.keeps_exits code).exit exit ended⟩
      rw [there]
      rfl
    · exact ⟨injection, rfl, stage, thread, there, ended⟩

theorem Sound.changes (sound : Sound own s) {process : Nat} {memory : Nat → Option UInt8}
    (alone : LeavesAlone s (.changes process memory)) : Sound own (remember process memory s) := by
  cases alive : (s.targets process).alive with
  | false =>
      rw [remember_dead alive]
      exact sound
  | true =>
      have alike := alike_remember process memory s
      have lease : (remember process memory s).lease = s.lease := by
        funext call
        unfold Shared.lease
        rw [alike.calls]
        simp only [alike.alive]
      refine ⟨fun call injection called => ?_, ?_, fun call code returned => ?_⟩
      · rw [alike.calls] at called
        exact (sound.fine call injection called).target (alike.alive _) (alike.wow64 _)
      · rw [lease]
        apply sound.safe.elsewhere
        rintro call ⟨other, address⟩ held
        rw [memory_remember alive]
        by_cases here : other = process
        · subst here
          rw [if_pos rfl]
          exact (alone call address held).symm
        · rw [if_neg here]
      · rw [alike.replies] at returned
        rw [alike.calls]
        exact sound.replies call code returned

theorem Sound.step (sound : Sound own s) (event : Event) (alone : LeavesAlone s event) :
    Sound own (step own s event) := by
  cases event with
  | begin call dllPath duplicated =>
      simp only [Injector.step]
      cases called : s.calls[call]? with
      | some injection => exact sound
      | none =>
          simp only [Option.isSome_none, Bool.false_eq_true, if_false]
          split
          · refine ⟨sound.fine, sound.safe, fun other code returned => ?_⟩
            rw [List.mem_append, List.mem_singleton] at returned
            cases returned with
            | inl before => exact sound.replies other code before
            | inr now => exact absurd now (by simp)
          · rename_i process opened
            exact sound.begins called process dllPath
  | resume call answer =>
      simp only [Injector.step]
      split
      · exact sound
      · rename_i injection called
        exact sound.advance called answer
  | session process => exact ⟨sound.fine, sound.safe, sound.replies⟩
  | reads call =>
      apply sound.onThread fun injection thread => thread.keeps_reads _
      intro injection called thread there
      have fine := (sound.fine call injection called).thread thread there
      exact fine.1.reads fun running => sound.thread called there running
  | exits call code =>
      apply sound.onThread fun injection thread => thread.keeps_exits code
      intro injection called thread there
      exact ((sound.fine call injection called).thread thread there).1.exits code
  | ends process code => exact sound.ends process code
  | changes process memory => exact sound.changes alone

/-- Nobody injects yet. -/
def idle (session : Option Nat) (targets : Nat → Target) : Shared := { session, targets }

theorem sound_idle (own : Own) (session : Option Nat) (targets : Nat → Target) :
    Sound own (idle session targets) where
  fine call injection called := by
    rw [idle, TreeMap.getElem?_emptyc] at called
    contradiction
  safe := by
    have nobody : (idle session targets).lease = fun _ => Lease.none := by
      funext call
      unfold Shared.lease
      rw [idle, TreeMap.getElem?_emptyc]
    rw [nobody]
    exact safe_none
  replies call code returned := absurd returned List.not_mem_nil

theorem sound_reached {session : Option Nat} {targets : Nat → Target}
    (reached : Reached (step own) LeavesAlone (idle session targets) s) : Sound own s :=
  reached.invariant (sound_idle own session targets) fun _ event sound alone =>
    sound.step event alone

/-- As long as a thread runs its whole path is where it was put, whatever has become of the call
that put it there; and the thread has read nothing else. -/
theorem path_intact {session : Option Nat} {targets : Nat → Target}
    (reached : Reached (step own) LeavesAlone (idle session targets) s)
    (called : s.calls[call]? = some injection) {thread : Thread}
    (started : injection.thread = some thread) :
    (thread.exit = none → ∀ index byte, (pathBytes injection.dllPath)[index]? = some byte →
      (s.targets injection.process).memory (thread.parameter + index) = some byte) ∧
    thread.reading ≠ .faulted ∧ thread.read <+: cString injection.dllPath ∧
    (thread.reading = .whole → thread.read = cString injection.dllPath) := by
  have sound := sound_reached reached
  obtain ⟨faithful, -⟩ := (sound.fine call injection called).thread thread started
  exact ⟨sound.thread called started, faithful.mapped, faithful.part, faithful.whole⟩

/-- A system that answers every request. -/
def quietOwn : Own := ⟨.ok 0x10, .ok 0x20, fun _ => "Access is denied."⟩

def quiet : Shared := idle (some 1) fun _ => {}

/-- A call that starts its thread. -/
def starting : List Event :=
  [.begin 1 [0x61] (.ok ()), .resume 1 (.resolves 0x7000), .resume 1 (.allocates 0x10000),
    .resume 1 .succeeds, .resume 1 .succeeds]

/-- The thread has read one character when the call gives up. -/
def abandoned : List Event := starting ++ [.reads 1, .resume 1 .timesOut]

theorem abandoned_call :
    (run (step quietOwn) quiet abandoned).calls[(1 : Nat)]? =
      some
        { process := 1
          dllPath := [0x61]
          stage := .returned
          loadLibrary := 0x7000
          thread := some { start := 0x7000, parameter := 0x10000, read := [0x61] } } := by
  simp [run, abandoned, starting, quiet, step, idle, duplicateHandle, advance, settle,
    injectLoadLibraryW, startAddress, remember, onThread, Thread.reads, unitAt, mapped, written,
    pathBytes, blockSize, leak, warn]

theorem reached_abandoned : Reached (step quietOwn) LeavesAlone (idle (some 1) fun _ => {})
    (run (step quietOwn) quiet abandoned) := by
  apply Follows.reached
  exact ⟨trivial, trivial, trivial, trivial, trivial, trivial, trivial, trivial⟩

theorem path_intact_abandoned :
    ∃ injection thread,
      (run (step quietOwn) quiet abandoned).calls[(1 : Nat)]? = some injection ∧
      injection.thread = some thread ∧ thread.exit = none ∧ thread.read <+: cString [0x61] ∧
      ∀ index byte, (pathBytes injection.dllPath)[index]? = some byte →
        ((run (step quietOwn) quiet abandoned).targets injection.process).memory
          (thread.parameter + index) = some byte := by
  have intact := path_intact reached_abandoned abandoned_call rfl
  exact ⟨_, _, abandoned_call, rfl, rfl, intact.2.2.1, intact.1 rfl⟩

end PointerLab.Injector
