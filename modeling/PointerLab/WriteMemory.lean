import Mathlib.Data.List.Induction
import PointerLab.Alignment
import PointerLab.Domain
import PointerLab.Journals

set_option autoImplicit false

/- `Win32Platform::writeMemory`: a write that makes the pages it needs writable and puts their
protections back. -/
namespace PointerLab.Win32Platform

open Domain Alignment

/-- A call that the target process feels. -/
inductive Touch where
  | write (address size : Nat)
  | protect (address size protection : Nat)
  deriving DecidableEq

/-- The target process: the protection of each page that is mapped, by its address, the bytes, and
the calls made so far. -/
structure Target where
  protection : Nat → Option Nat
  memory : Nat → UInt8
  touches : List Touch := []

/-- How the system is set up, and how it answers, given all that has happened. -/
structure MemoryCalls where
  pageBits : Nat
  /-- The page size is a `DWORD`. -/
  pageBits_le : pageBits ≤ 31
  /-- Whether `WriteProcessMemory` succeeds, and how many bytes it has written. -/
  writes : Target → (address : Nat) → List UInt8 → Bool × Nat
  /-- Whether a page can be made writable. -/
  unprotects : Target → (page : Nat) → Bool
  /-- Whether a page can be given back its protection. -/
  restores : Target → (page : Nat) → Bool
  /-- Whether a vector of so many pages can be reserved. -/
  reserves : Nat → Bool
  lastError : Target → Nat
  formatLastError : Nat → String

/-- What is to be written, and where. -/
structure Request where
  address : Nat
  data : List UInt8
  address_lt : address < addressSpace
  size_lt : data.length < addressSpace

def Request.size (request : Request) : Nat := request.data.length

structure Page where
  base : Nat
  oldProtection : Nat

inductive Outcome where
  | returned (result : Result Unit)
  | thrown

def pageExecuteReadWrite : Nat := 0x40

section Calls

variable (calls : MemoryCalls)

def MemoryCalls.pageSize : Nat := 2 ^ calls.pageBits

def pageOf (address : Nat) : Nat := alignDown 64 calls.pageSize address

/-- Whether a range has something of a page. -/
def covers (address size page : Nat) : Bool :=
  pageOf calls address ≤ page && page ≤ pageOf calls (address + size - 1)

/-- `VirtualProtectEx`: every page of the range gets the protection; the one that is told is that
of the first page. -/
def virtualProtect (succeeds : Bool) (address size protection : Nat) (target : Target) :
    Target × Option Nat :=
  let called := { target with
    touches := target.touches ++ [.protect address size protection] }
  match succeeds, target.protection (pageOf calls address) with
  | true, some old =>
      ({ called with
        protection := fun page =>
          if covers calls address size page then some protection else target.protection page },
        some old)
  | _, _ => (called, none)

/-- `WriteProcessMemory`: of the data it has written a part, whether it succeeds or not. -/
def writeProcess (address : Nat) (data : List UInt8) (target : Target) :
    Target × Bool × Nat :=
  let (succeeds, written) := calls.writes target address data
  ({ target with
    memory := fun place =>
      ((data.take written)[(place + addressSpace - address) % addressSpace]?).getD
        (target.memory place)
    touches := target.touches ++ [.write address data.length] }, succeeds, written)

/-- In reverse, and every one of them even if an earlier one failed; `pages` is newest first. -/
def restore : List Page → Target → Target
  | [], target => target
  | page :: rest, target =>
      restore rest (virtualProtect calls (calls.restores target page.base) page.base calls.pageSize
        page.oldProtection target).1

/-- The loop over the pages, from one of them to the last; no more of them than the fuel. Once it
is done the pages are all writable, or one could not be made so. -/
def makeWritable (lastPage : Nat) : Nat → Nat → List Page → Target →
    Option (Target × List Page × Bool)
  | 0, _, _, _ => none
  | fuel + 1, page, pages, target =>
      match virtualProtect calls (calls.unprotects target page) page calls.pageSize
        pageExecuteReadWrite target with
      | (target, none) => some (target, pages, false)
      | (target, some oldProtection) =>
          let pages := pages ++ [{ base := page, oldProtection }]
          if page = lastPage then some (target, pages, true)
          else makeWritable lastPage fuel ((page + calls.pageSize) % addressSpace) pages target

def firstPage (request : Request) : Nat := pageOf calls request.address

def lastPage (request : Request) : Nat :=
  pageOf calls ((request.address + request.size - 1) % addressSpace)

/-- The write once the pages are writable. -/
def writeAgain (request : Request) (pages : List Page) (target : Target) : Target × Outcome :=
  let (target, wrote, written) := writeProcess calls request.address request.data target
  let writeError := if wrote then 0 else calls.lastError target
  let target := restore calls pages.reverse target
  if !wrote || written ≠ request.size then
    (target, .returned (fail (calls.formatLastError writeError) writeError))
  else (target, .returned (.ok ()))

/-- The loop and the write behind it, page by page. -/
def escalate (request : Request) (target : Target) : Option (Target × Outcome) :=
  let count := (lastPage calls request + addressSpace - firstPage calls request) % addressSpace /
    calls.pageSize + 1
  if !calls.reserves count then some (target, .thrown)
  else
    match makeWritable calls (lastPage calls request) (addressSpace / calls.pageSize + 1)
      (firstPage calls request) [] target with
    | none => none
    | some (target, pages, false) =>
        let error := calls.lastError target
        let target := restore calls pages.reverse target
        some (target, .returned (fail ("Could not make the target memory writable: " ++
          calls.formatLastError error) error))
    | some (target, pages, true) => some (writeAgain calls request pages target)

/-- Nothing, where it would not come to an end. -/
def writeMemory (request : Request) (target : Target) : Option (Target × Outcome) :=
  if request.size = 0 then some (target, .returned (.ok ()))
  else
    match writeProcess calls request.address request.data target with
    | (target, succeeds, written) =>
        if succeeds && written = request.size then some (target, .returned (.ok ()))
        else escalate calls request target

end Calls

/-! ## The pages of a range -/

/-- The page holds a byte of what is to be written. -/
def Request.Reaches (calls : MemoryCalls) (request : Request) (page : Nat) : Prop :=
  ∃ index < request.size, pageOf calls ((request.address + index) % addressSpace) = page

/-- The call is about the page. -/
def Touch.Reaches (calls : MemoryCalls) (page : Nat) : Touch → Prop
  | .write address size => ∃ index < size, pageOf calls ((address + index) % addressSpace) = page
  | .protect address size _ => covers calls address size page = true

section Pages

variable {calls : MemoryCalls}

theorem pageSize_pos : 0 < calls.pageSize := Nat.two_pow_pos _

theorem pageSize_dvd : calls.pageSize ∣ addressSpace := by
  have bits := calls.pageBits_le
  exact Nat.pow_dvd_pow 2 (show calls.pageBits ≤ 64 by omega)

theorem pageOf_eq {address : Nat} (word : address < addressSpace) :
    pageOf calls address = address / calls.pageSize * calls.pageSize := by
  have bits := calls.pageBits_le
  exact alignDown_eq (by omega) word

/-- The address of a page. -/
structure IsPage (calls : MemoryCalls) (page : Nat) : Prop where
  aligned : calls.pageSize ∣ page
  word : page < addressSpace

theorem pageOf_inside {page index : Nat} (isPage : IsPage calls page)
    (inside : index < calls.pageSize) : pageOf calls (page + index) = page := by
  have last := add_le_of_dvd isPage.aligned pageSize_dvd isPage.word
  obtain ⟨number, same⟩ := isPage.aligned
  rw [pageOf_eq (by omega), same, Nat.mul_add_div pageSize_pos, Nat.div_eq_of_lt inside,
    Nat.add_zero, Nat.mul_comm]

theorem IsPage.next {page : Nat} (isPage : IsPage calls page) (steps : Nat) :
    IsPage calls ((page + steps * calls.pageSize) % addressSpace) where
  aligned := (Nat.dvd_mod_iff pageSize_dvd).mpr
    (Nat.dvd_add isPage.aligned (Nat.dvd_mul_left _ _))
  word := Nat.mod_lt _ (by decide)

/-- One page by its address and its size is that page. -/
theorem covers_page {page : Nat} (isPage : IsPage calls page) (other : Nat) :
    covers calls page calls.pageSize other = true ↔ other = page := by
  have positive := @pageSize_pos calls
  have first : pageOf calls page = page := pageOf_inside isPage positive
  have last : pageOf calls (page + calls.pageSize - 1) = page := by
    rw [Nat.add_sub_assoc positive]
    exact pageOf_inside isPage (by omega)
  rw [covers, first, last, Bool.and_eq_true, decide_eq_true_eq, decide_eq_true_eq]
  omega

theorem pageOf_mod (address : Nat) :
    pageOf calls (address % addressSpace) =
      address / calls.pageSize * calls.pageSize % addressSpace := by
  obtain ⟨count, same⟩ := @pageSize_dvd calls
  have positive : 0 < addressSpace := by decide
  rw [pageOf_eq (Nat.mod_lt _ positive), same, Nat.mod_mul_right_div_self,
    Nat.mul_comm calls.pageSize count, Nat.mul_mod_mul_right]

theorem firstPage_eq (request : Request) :
    firstPage calls request = request.address / calls.pageSize * calls.pageSize :=
  pageOf_eq request.address_lt

/-- How many pages there are behind the first one. -/
def furtherPages (calls : MemoryCalls) (request : Request) : Nat :=
  (request.address % calls.pageSize + request.size - 1) / calls.pageSize

theorem reaches_step (request : Request) {steps : Nat}
    (inside : steps ≤ furtherPages calls request) (some_ : request.size ≠ 0) :
    request.Reaches calls
      ((firstPage calls request + steps * calls.pageSize) % addressSpace) := by
  have positive := @pageSize_pos calls
  have whole := Nat.div_add_mod' request.address calls.pageSize
  have within := Nat.mod_lt request.address positive
  have far := Nat.mul_le_of_le_div _ _ _ inside
  refine ⟨steps * calls.pageSize - request.address % calls.pageSize, by omega, ?_⟩
  have page : (request.address + (steps * calls.pageSize - request.address % calls.pageSize)) /
      calls.pageSize = request.address / calls.pageSize + steps := by
    cases steps with
    | zero => rw [Nat.zero_mul, Nat.zero_sub, Nat.add_zero, Nat.add_zero]
    | succ steps =>
        have more : calls.pageSize ≤ (steps + 1) * calls.pageSize :=
          Nat.le_mul_of_pos_left _ (Nat.succ_pos steps)
        have sum : request.address +
            ((steps + 1) * calls.pageSize - request.address % calls.pageSize) =
              (request.address / calls.pageSize + (steps + 1)) * calls.pageSize := by
          rw [Nat.add_mul (request.address / calls.pageSize)]
          omega
        rw [sum, Nat.mul_div_cancel _ positive]
  rw [pageOf_mod, page, firstPage_eq, Nat.add_mul]

theorem lastPage_eq (request : Request) (some_ : request.size ≠ 0) :
    (firstPage calls request + furtherPages calls request * calls.pageSize) % addressSpace =
      lastPage calls request := by
  have whole := Nat.div_add_mod' request.address calls.pageSize
  have sum : request.address + request.size - 1 =
      calls.pageSize * (request.address / calls.pageSize) +
        (request.address % calls.pageSize + request.size - 1) := by
    rw [Nat.mul_comm]
    omega
  rw [lastPage, pageOf_mod, sum, Nat.mul_add_div pageSize_pos, firstPage_eq, ← Nat.add_mul]
  rfl

theorem isPage_firstPage (request : Request) : IsPage calls (firstPage calls request) where
  aligned := by
    rw [firstPage_eq]
    exact Nat.dvd_mul_left _ _
  word := by
    rw [firstPage_eq]
    exact Nat.lt_of_le_of_lt (Nat.div_mul_le_self _ _) request.address_lt

/-- There are no more pages behind the first one than there are pages. -/
theorem furtherPages_lt (request : Request) :
    furtherPages calls request < addressSpace / calls.pageSize + 1 := by
  have positive := @pageSize_pos calls
  have within := Nat.mod_lt request.address positive
  have size : request.size < addressSpace := request.size_lt
  have whole : (addressSpace / calls.pageSize + 1) * calls.pageSize =
      addressSpace + calls.pageSize := by
    rw [Nat.add_mul, Nat.div_mul_cancel pageSize_dvd, Nat.one_mul]
  rw [furtherPages, Nat.div_lt_iff_lt_mul positive, whole]
  omega

end Pages

/-! ## What the calls leave -/

section Calls

variable {calls : MemoryCalls} {request : Request}

/-- What has been done to the target since: calls about pages of the range, and bytes of pages of
the range. -/
structure Kept (calls : MemoryCalls) (request : Request) (before after : Target) : Prop where
  touches : ∃ touches, after.touches = before.touches ++ touches ∧
    ∀ touch ∈ touches, ∀ page, touch.Reaches calls page → request.Reaches calls page
  memory : ∀ place < addressSpace, ¬ request.Reaches calls (pageOf calls place) →
    after.memory place = before.memory place

theorem Kept.refl (target : Target) : Kept calls request target target where
  touches := ⟨[], (List.append_nil _).symm, fun _ => nofun⟩
  memory := fun _ _ _ => rfl

theorem Kept.trans {first second third : Target} (before : Kept calls request first second)
    (after : Kept calls request second third) : Kept calls request first third where
  touches := by
    obtain ⟨earlier, same, reach⟩ := before.touches
    obtain ⟨later, same', reach'⟩ := after.touches
    refine ⟨earlier ++ later, ?_, List.forall_mem_append.mpr ⟨reach, reach'⟩⟩
    rw [same', same, List.append_assoc]
  memory := by
    intro place word outside
    rw [after.memory place word outside, before.memory place word outside]

theorem virtualProtect_kept {page : Nat} (isPage : IsPage calls page)
    (reaches : request.Reaches calls page) (succeeds : Bool) (protection : Nat)
    (target : Target) :
    Kept calls request target
      (virtualProtect calls succeeds page calls.pageSize protection target).1 := by
  have called : ∀ touch ∈ [Touch.protect page calls.pageSize protection], ∀ other,
      touch.Reaches calls other → request.Reaches calls other := by
    intro touch inside other about
    rw [List.mem_singleton.mp inside] at about
    rw [(covers_page isPage other).mp about]
    exact reaches
  unfold virtualProtect
  simp only
  split <;> exact ⟨⟨_, rfl, called⟩, fun _ _ _ => rfl⟩

/-- A page that is protected is mapped, and only its protection changes. -/
theorem virtualProtect_some {page : Nat} (isPage : IsPage calls page) {succeeds : Bool}
    {protection old : Nat} {target after : Target}
    (protects : virtualProtect calls succeeds page calls.pageSize protection target =
      (after, some old)) :
    target.protection page = some old ∧
      after.protection = Function.update target.protection page (some protection) := by
  have here : pageOf calls page = page := pageOf_inside isPage pageSize_pos
  unfold virtualProtect at protects
  simp only [here] at protects
  split at protects
  · rename_i mapped
    cases protects
    refine ⟨mapped, ?_⟩
    funext other
    rw [Function.update_apply]
    simp only [covers_page isPage]
  · cases protects

theorem virtualProtect_none {succeeds : Bool} {address size protection : Nat}
    {target after : Target}
    (fails : virtualProtect calls succeeds address size protection target = (after, none)) :
    after.protection = target.protection := by
  unfold virtualProtect at fails
  simp only at fails
  split at fails
  · cases fails
  · cases fails
    rfl

theorem writeProcess_kept (target : Target) :
    Kept calls request target
        (writeProcess calls request.address request.data target).1 ∧
      (writeProcess calls request.address request.data target).1.protection =
        target.protection := by
  refine ⟨⟨⟨_, rfl, ?_⟩, ?_⟩, rfl⟩
  · intro touch inside page about
    rw [List.mem_singleton.mp inside] at about
    exact about
  · intro place word outside
    have address := request.address_lt
    have back : (request.address + (place + addressSpace - request.address) % addressSpace) %
        addressSpace = place := by
      unfold addressSpace at *
      omega
    have far : request.size ≤ (place + addressSpace - request.address) % addressSpace := by
      by_contra inside
      exact outside ⟨_, Nat.lt_of_not_le inside, by rw [back]⟩
    have part := List.length_take_le' (calls.writes target request.address request.data).2
      request.data
    simp only [writeProcess]
    rw [List.getElem?_eq_none (Nat.le_trans part far), Option.getD_none]

/-- The protections noted so far: of pages of the range that are mapped, and putting them back gives
what there was at first. -/
structure Noted (calls : MemoryCalls) (request : Request) (first : Nat → Option Nat)
    (pages : List Page) (target : Target) : Prop where
  undone : Journals.undo (pages.map fun page => (page.base, some page.oldProtection))
    target.protection = first
  isPage : ∀ page ∈ pages, IsPage calls page.base
  reaches : ∀ page ∈ pages, request.Reaches calls page.base
  mapped : ∀ page ∈ pages, ∃ now, target.protection page.base = some now

variable {first : Nat → Option Nat} {pages : List Page} {target : Target}

theorem Noted.congr {after : Target} (noted : Noted calls request first pages target)
    (same : after.protection = target.protection) : Noted calls request first pages after where
  undone := by rw [same, noted.undone]
  isPage := noted.isPage
  reaches := noted.reaches
  mapped := by
    rw [same]
    exact noted.mapped

theorem mapped_update {page other : Nat} {now new : Nat}
    (mapped : target.protection other = some now) :
    ∃ later, Function.update target.protection page (some new) other = some later := by
  by_cases same : other = page
  · rw [same, Function.update_self]
    exact ⟨new, rfl⟩
  · rw [Function.update_of_ne same]
    exact ⟨now, mapped⟩

/-- A page made writable is noted. -/
theorem Noted.push {after : Target} {page old new : Nat} {succeeds : Bool}
    (noted : Noted calls request first pages target) (isPage : IsPage calls page)
    (reaches : request.Reaches calls page)
    (protects : virtualProtect calls succeeds page calls.pageSize new target =
      (after, some old)) :
    Noted calls request first (pages ++ [{ base := page, oldProtection := old }]) after := by
  obtain ⟨was, now⟩ := virtualProtect_some isPage protects
  refine ⟨?_, ?_, ?_, ?_⟩
  · rw [List.map_append, List.map_singleton, now, ← was, Journals.undo_update]
    exact noted.undone
  · exact List.forall_mem_append.mpr ⟨noted.isPage, List.forall_mem_singleton.mpr isPage⟩
  · exact List.forall_mem_append.mpr ⟨noted.reaches, List.forall_mem_singleton.mpr reaches⟩
  · rw [now]
    refine List.forall_mem_append.mpr ⟨?_, List.forall_mem_singleton.mpr ?_⟩
    · intro other inside
      obtain ⟨value, mapped⟩ := noted.mapped other inside
      exact mapped_update mapped
    · exact mapped_update was

/-- Putting the protections back in reverse. -/
theorem restore_kept (back : ∀ target page, calls.restores target page = true)
    (noted : Noted calls request first pages target) :
    (restore calls pages.reverse target).protection = first ∧
      Kept calls request target (restore calls pages.reverse target) := by
  induction pages using List.reverseRecOn generalizing target with
  | nil => exact ⟨noted.undone, .refl target⟩
  | append_singleton pages page ih =>
      rw [List.reverse_append, List.reverse_singleton, List.singleton_append, restore]
      have inside : page ∈ pages ++ [page] := List.mem_append_right _ List.mem_cons_self
      have isPage := noted.isPage page inside
      obtain ⟨now, mapped⟩ := noted.mapped page inside
      have kept := virtualProtect_kept isPage (noted.reaches page inside)
        (calls.restores target page.base) page.oldProtection target
      rcases protects : virtualProtect calls (calls.restores target page.base) page.base
        calls.pageSize page.oldProtection target with ⟨after, _ | old⟩
      · have here : pageOf calls page.base = page.base := pageOf_inside isPage pageSize_pos
        simp only [virtualProtect, here, mapped, back] at protects
        cases protects
      · rw [protects] at kept
        have next := (virtualProtect_some isPage protects).2
        have less : Noted calls request first pages after := by
          refine ⟨?_, fun other earlier => noted.isPage other (List.mem_append_left _ earlier),
            fun other earlier => noted.reaches other (List.mem_append_left _ earlier), ?_⟩
          · have undone := noted.undone
            rw [List.map_append, List.map_singleton, Journals.undo_concat, ← next] at undone
            exact undone
          · intro other earlier
            obtain ⟨value, there⟩ := noted.mapped other (List.mem_append_left _ earlier)
            rw [next]
            exact mapped_update there
        obtain ⟨restored, later⟩ := ih less
        exact ⟨restored, kept.trans later⟩

/-- The loop over the pages comes to an end, and whatever it did is noted. -/
theorem makeWritable_noted {fuel page steps last : Nat} (isPage : IsPage calls page)
    (enough : steps < fuel) (ends : (page + steps * calls.pageSize) % addressSpace = last)
    (inside : ∀ step ≤ steps,
      request.Reaches calls ((page + step * calls.pageSize) % addressSpace))
    (noted : Noted calls request first pages target) :
    ∃ after saved done, makeWritable calls last fuel page pages target = some (after, saved, done) ∧
      Noted calls request first saved after ∧ Kept calls request target after := by
  induction fuel generalizing page steps pages target with
  | zero => exact absurd enough (Nat.not_lt_zero _)
  | succ fuel ih =>
      have here : request.Reaches calls page := by
        have start := inside 0 (Nat.zero_le _)
        rwa [Nat.zero_mul, Nat.add_zero, Nat.mod_eq_of_lt isPage.word] at start
      have kept := virtualProtect_kept isPage here (calls.unprotects target page)
        pageExecuteReadWrite target
      unfold makeWritable
      rcases protects : virtualProtect calls (calls.unprotects target page) page calls.pageSize
        pageExecuteReadWrite target with ⟨after, _ | old⟩
      · rw [protects] at kept
        exact ⟨after, pages, false, rfl, noted.congr (virtualProtect_none protects), kept⟩
      · rw [protects] at kept
        have pushed := noted.push isPage here protects
        simp only
        by_cases final : page = last
        · rw [if_pos final]
          exact ⟨after, _, true, rfl, pushed, kept⟩
        · rw [if_neg final]
          cases steps with
          | zero =>
              rw [Nat.zero_mul, Nat.add_zero, Nat.mod_eq_of_lt isPage.word] at ends
              exact absurd ends final
          | succ steps =>
              have later : ∀ step, ((page + calls.pageSize) % addressSpace +
                  step * calls.pageSize) % addressSpace =
                    (page + (step + 1) * calls.pageSize) % addressSpace := by
                intro step
                rw [Nat.mod_add_mod, Nat.add_mul, Nat.one_mul]
                congr 1
                omega
              have next := isPage.next 1
              rw [Nat.one_mul] at next
              obtain ⟨end_, saved, done, runs, held, onwards⟩ :=
                @ih _ _ _ steps next (by omega) ((later steps).trans ends)
                  (fun step least => (later step) ▸ inside (step + 1) (by omega)) pushed
              exact ⟨end_, saved, done, runs, held, kept.trans onwards⟩

theorem writeAgain_kept (back : ∀ target page, calls.restores target page = true)
    (noted : Noted calls request first pages target) :
    (writeAgain calls request pages target).1.protection = first ∧
      Kept calls request target (writeAgain calls request pages target).1 := by
  obtain ⟨written, same⟩ := @writeProcess_kept calls request target
  have restored := restore_kept back (noted.congr same)
  have kept := written.trans restored.2
  unfold writeAgain
  simp only
  split <;> exact ⟨restored.1, kept⟩

theorem escalate_kept (back : ∀ target page, calls.restores target page = true)
    (some_ : request.size ≠ 0) (target : Target) :
    ∃ after outcome, escalate calls request target = some (after, outcome) ∧
      after.protection = target.protection ∧ Kept calls request target after := by
  have start : Noted calls request target.protection [] target :=
    ⟨rfl, fun _ => nofun, fun _ => nofun, fun _ => nofun⟩
  obtain ⟨after, saved, done, runs, noted, kept⟩ :=
    makeWritable_noted (isPage_firstPage request) (furtherPages_lt request)
      (lastPage_eq request some_) (fun _ least => reaches_step request least some_) start
  unfold escalate
  simp only
  split
  · exact ⟨target, _, rfl, rfl, .refl target⟩
  rw [runs]
  cases done with
  | false =>
      have restored := restore_kept back noted
      exact ⟨_, _, rfl, restored.1, kept.trans restored.2⟩
  | true =>
      obtain ⟨restored, again⟩ := writeAgain_kept back noted
      exact ⟨_, _, rfl, restored, kept.trans again⟩

/-- Whatever fails, the call comes to an end, every page has the protection it had, and nothing is
touched but the pages of the range. -/
theorem writeMemory_kept (calls : MemoryCalls)
    (back : ∀ target page, calls.restores target page = true) (request : Request)
    (target : Target) :
    ∃ after outcome, writeMemory calls request target = some (after, outcome) ∧
      after.protection = target.protection ∧ Kept calls request target after := by
  unfold writeMemory
  split
  · exact ⟨target, _, rfl, rfl, .refl target⟩
  rename_i some_
  obtain ⟨written, same⟩ := @writeProcess_kept calls request target
  rcases direct : writeProcess calls request.address request.data target with
    ⟨now, succeeds, count⟩
  rw [direct] at written same
  simp only at written same ⊢
  split
  · exact ⟨now, _, rfl, same, written⟩
  · obtain ⟨after, outcome, escalated, restored, kept⟩ := escalate_kept back some_ now
    exact ⟨after, outcome, escalated, restored.trans same, written.trans kept⟩

end Calls

/-- No write goes through, and the page at 0x3000 stays as it is. -/
def stubborn : MemoryCalls where
  pageBits := 12
  pageBits_le := by decide
  writes _ _ _ := (false, 1)
  unprotects _ page := page != 0x3000
  restores _ _ := true
  reserves _ := true
  lastError _ := 487
  formatLastError _ := "Attempt to access invalid address."

/-- A write over two page boundaries. -/
def acrossPages : Request where
  address := 0x1FFF
  data := List.replicate 0x1002 0x90
  address_lt := by decide
  size_lt := by
    rw [List.length_replicate]
    decide

def codeAndData : Target where
  protection page := if page = 0x1000 then some 0x20 else some 0x02
  memory _ := 0xCC

theorem writeMemory_kept_acrossPages :
    ∃ after outcome, writeMemory stubborn acrossPages codeAndData = some (after, outcome) ∧
      after.protection = codeAndData.protection ∧
      Kept stubborn acrossPages codeAndData after :=
  writeMemory_kept stubborn (fun _ _ => rfl) acrossPages codeAndData

example : (writeMemory stubborn acrossPages codeAndData).map (fun answer => answer.1.touches) =
    some [.write 0x1FFF 0x1002, .protect 0x1000 0x1000 0x40, .protect 0x2000 0x1000 0x40,
      .protect 0x3000 0x1000 0x40, .protect 0x2000 0x1000 0x02, .protect 0x1000 0x1000 0x20] := by
  decide +kernel

end PointerLab.Win32Platform
