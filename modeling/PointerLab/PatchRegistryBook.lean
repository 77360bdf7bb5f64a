import PointerLab.PatchRegistryCalls
import PointerLab.PatchRegistryLayers
import PointerLab.Tables

set_option autoImplicit false

/- Over every interleaving of calls, a book says which layers show in the target. It
runs ahead of the records: a patch is on the book from the write that applies it, and
its entry is turned by the write that toggles it, before the record and the flag follow. -/
namespace PointerLab.PatchRegistry

open Overlay Layers TargetSession Std

variable {base : Nat → UInt8} {book : Nat → Option (Layer UInt8)} {p : Patched}
  {calls : TreeMap Nat Stage}

/-- The table, the reservations and the target agree with the book. -/
structure Ground (base : Nat → UInt8) (p : Patched) (book : Nat → Option (Layer UInt8)) :
    Prop where
  tidy : Tidy p.registry
  laid : Laid base book p.memory
  positive : 0 < p.registry.nextId
  numbered : ∀ range ∈ p.registry.reserved, 0 < range.id ∧ range.id < p.registry.nextId ∧
    ∀ patch ∈ p.registry.patches, patch.id ≠ range.id
  apart : ∀ first ∈ p.registry.reserved, ∀ second ∈ p.registry.reserved, first.id ≠ second.id →
    first.address + first.size ≤ userSpaceEnd → second.address + second.size ≤ userSpaceEnd →
      Apart first.address first.size second.address second.size
  clear : ∀ range ∈ p.registry.reserved, range.address + range.size ≤ userSpaceEnd →
    ∀ id layer, id ≠ range.id → book id = some layer → layer.Clear range.address range.size

def Claimed (r : Registry) (claim : Claim) : Prop :=
  ⟨claim.id, claim.address, claim.bytes.length⟩ ∈ r.reserved

/-- A number that was given out and is no longer reserved. -/
def Known (r : Registry) (id : Nat) : Prop :=
  id < r.nextId ∧ ∀ range ∈ r.reserved, range.id ≠ id

/-- The bytes a toggle is about to write are its layer's, or, if the layer is gone,
the target's own over a range that nobody uses. -/
structure Aimed (base : Nat → UInt8) (book : Nat → Option (Layer UInt8)) (r : Registry) (id : Nat)
    (enabled : Bool) (address : Nat) (bytes : List UInt8) : Prop where
  layer : ∀ layer, book id = some layer →
    address = layer.address ∧ bytes = if enabled then layer.cover else layer.under
  off : book id = none → enabled = false
  genuine : book id = none → bytes = slice base address bytes.length
  unused : book id = none → ∀ other layer, book other = some layer →
    layer.Clear address bytes.length
  unclaimed : book id = none → ∀ range ∈ r.reserved, range.address + range.size ≤ userSpaceEnd →
    Apart address bytes.length range.address range.size

/-- What a call in progress relies on at each stage. -/
def Stands (base : Nat → UInt8) (book : Nat → Option (Layer UInt8)) (r : Registry) : Stage → Prop
  | .applyRead claim => Claimed r claim ∧ 0 < claim.bytes.length ∧ book claim.id = none
  | .applyWrite claim original =>
      Claimed r claim ∧ 0 < claim.bytes.length ∧ book claim.id = none ∧
        original = slice base claim.address claim.bytes.length ∧
        claim.address + claim.bytes.length ≤ userSpaceEnd
  | .applyRecord claim original =>
      Claimed r claim ∧ book claim.id = some ⟨claim.address, original, claim.bytes, true⟩ ∧
        claim.address + original.length ≤ userSpaceEnd
  | .applyRelease id _ => (∃ range ∈ r.reserved, range.id = id) ∧ book id = none
  | .toggleWrite id enabled address bytes _ =>
      Known r id ∧ Aimed base book r id enabled address bytes
  | .toggleFlag id enabled _ => Known r id ∧ ∀ layer, book id = some layer → layer.up = enabled
  | .erase id => Known r id
  | .restore .. => True

namespace Stage

/-- The flag a call has yet to set for a write it has made. -/
def flags : Stage → Option (Nat × Bool)
  | .toggleFlag id enabled _ => some (id, enabled)
  | _ => none

/-- The patch a call has yet to record for a write it has made. -/
def records : Stage → Option Nat
  | .applyRecord claim _ => some claim.id
  | _ => none

end Stage

structure Coherent (base : Nat → UInt8) (p : Patched) (calls : TreeMap Nat Stage)
    (book : Nat → Option (Layer UInt8)) : Prop where
  ground : Ground base p book
  stands : ∀ (thread : Nat) (stage : Stage), calls[thread]? = some stage →
    Stands base book p.registry stage
  recorded : ∀ patch ∈ p.registry.patches, ∃ up,
    book patch.id = some { patch.layer with up := up } ∧ (up = patch.enabled ∨
      ∃ (thread : Nat) (stage : Stage), calls[thread]? = some stage ∧
        stage.flags = some (patch.id, up))
  booked : ∀ id layer, book id = some layer → (∃ patch ∈ p.registry.patches, patch.id = id) ∨
    ∃ (thread : Nat) (stage : Stage), calls[thread]? = some stage ∧ stage.records = some id
  distinct : ∀ (first second : Nat) (one other : Stage) (id : Nat), calls[first]? = some one →
    calls[second]? = some other → one.claims = some id → other.claims = some id → first = second
  direction : ∀ (first second : Nat) (one other : Stage) (id : Nat) (here there : Bool),
    calls[first]? = some one → calls[second]? = some other → one.toggles = some (id, here) →
      other.toggles = some (id, there) → here = there

theorem proceed_other {thread other : Nat} (progress : Progress) (different : other ≠ thread) :
    (proceed thread calls progress)[other]? = calls[other]? := by
  cases progress with
  | pending new => rw [proceed, Tables.getElem?_insert, if_neg different]
  | finished reply => rw [proceed, Tables.getElem?_erase, if_neg different]

theorem proceed_eq_some {thread other : Nat} {progress : Progress} {stage : Stage}
    (present : (proceed thread calls progress)[other]? = some stage) :
    (other = thread ∧ progress = .pending stage) ∨
      (other ≠ thread ∧ calls[other]? = some stage) := by
  cases progress with
  | pending new =>
      rcases Tables.eq_some_of_insert present with ⟨here, rfl⟩ | elsewhere
      · exact Or.inl ⟨here, rfl⟩
      · exact Or.inr elsewhere
  | finished reply => exact Or.inr (Tables.eq_some_of_erase present)

theorem proceed_self (thread : Nat) (stage : Stage) :
    (proceed thread calls (.pending stage))[thread]? = some stage := by
  rw [proceed, Tables.getElem?_insert, if_pos rfl]

theorem Coherent.claim_below (before : Coherent base p calls book) {thread id : Nat}
    {stage : Stage} (present : calls[thread]? = some stage) (claims : stage.claims = some id) :
    id < p.registry.nextId := by
  have stands := before.stands thread stage present
  cases stage with
  | applyRead claim =>
      cases claims
      exact (before.ground.numbered _ stands.1).2.1
  | applyWrite claim original =>
      cases claims
      exact (before.ground.numbered _ stands.1).2.1
  | applyRecord claim original =>
      cases claims
      exact (before.ground.numbered _ stands.1).2.1
  | applyRelease id failure =>
      cases claims
      obtain ⟨⟨range, reserved, rfl⟩, _⟩ := stands
      exact (before.ground.numbered range reserved).2.1
  | toggleWrite => contradiction
  | toggleFlag => contradiction
  | erase => contradiction
  | restore => contradiction

/-- What has to be shown of a step: the other calls still stand, this one stands where
it goes, and the two facts that count calls keep their witnesses. -/
theorem Coherent.moved (before : Coherent base p calls book) {after : Patched}
    {turned : Nat → Option (Layer UInt8)} (thread : Nat) (progress : Progress)
    (ground : Ground base after turned)
    (others : ∀ (other : Nat) (stage : Stage), other ≠ thread → calls[other]? = some stage →
      Stands base turned after.registry stage)
    (mine : ∀ stage, progress = .pending stage → Stands base turned after.registry stage)
    (claims : ∀ stage id, progress = .pending stage → stage.claims = some id →
      (∃ old, calls[thread]? = some old ∧ old.claims = some id) ∨ id = p.registry.nextId)
    (toggles : ∀ stage id enabled, progress = .pending stage →
      stage.toggles = some (id, enabled) →
      (∃ old, calls[thread]? = some old ∧ old.toggles = some (id, enabled)) ∨
        ∀ (other : Nat) (stage : Stage), calls[other]? = some stage →
          stage.toggles ≠ some (id, !enabled))
    (recorded : ∀ patch ∈ after.registry.patches, ∃ up,
      turned patch.id = some { patch.layer with up := up } ∧ (up = patch.enabled ∨
        (∃ stage, progress = .pending stage ∧ stage.flags = some (patch.id, up)) ∨
        ∃ (other : Nat) (stage : Stage), other ≠ thread ∧ calls[other]? = some stage ∧
          stage.flags = some (patch.id, up)))
    (booked : ∀ id layer, turned id = some layer →
      (∃ patch ∈ after.registry.patches, patch.id = id) ∨
        (∃ stage, progress = .pending stage ∧ stage.records = some id) ∨
        ∃ (other : Nat) (stage : Stage), other ≠ thread ∧ calls[other]? = some stage ∧
          stage.records = some id) :
    Coherent base after (proceed thread calls progress) turned := by
  refine ⟨ground, ?_, ?_, ?_, ?_, ?_⟩
  · intro other stage present
    rcases proceed_eq_some present with ⟨_, now⟩ | ⟨different, old⟩
    · exact mine stage now
    · exact others other stage different old
  · intro patch member
    obtain ⟨up, shown, flagged⟩ := recorded patch member
    refine ⟨up, shown, ?_⟩
    rcases flagged with same | ⟨stage, rfl, flags⟩ | ⟨other, stage, different, present, flags⟩
    · exact Or.inl same
    · exact Or.inr ⟨thread, stage, proceed_self thread stage, flags⟩
    · exact Or.inr ⟨other, stage, (proceed_other progress different).trans present, flags⟩
  · intro id layer present
    rcases booked id layer present with inTable | ⟨stage, rfl, records⟩ |
      ⟨other, stage, different, pending, records⟩
    · exact Or.inl inTable
    · exact Or.inr ⟨thread, stage, proceed_self thread stage, records⟩
    · exact Or.inr ⟨other, stage, (proceed_other progress different).trans pending, records⟩
  · intro first second one other id atFirst atSecond oneClaims otherClaims
    rcases proceed_eq_some atFirst with ⟨rfl, now⟩ | ⟨firstOther, old⟩
    · rcases proceed_eq_some atSecond with ⟨rfl, _⟩ | ⟨secondOther, old⟩
      · rfl
      · rcases claims one id now oneClaims with ⟨held, atThread, heldClaims⟩ | rfl
        · exact before.distinct first second held other id atThread old heldClaims otherClaims
        · exact absurd (before.claim_below old otherClaims) (Nat.lt_irrefl _)
    · rcases proceed_eq_some atSecond with ⟨rfl, now⟩ | ⟨secondOther, alsoOld⟩
      · rcases claims other id now otherClaims with ⟨held, atThread, heldClaims⟩ | rfl
        · exact before.distinct first second one held id old atThread oneClaims heldClaims
        · exact absurd (before.claim_below old oneClaims) (Nat.lt_irrefl _)
      · exact before.distinct first second one other id old alsoOld oneClaims otherClaims
  · intro first second one other id here there atFirst atSecond oneToggles otherToggles
    rcases proceed_eq_some atFirst with ⟨rfl, now⟩ | ⟨firstOther, old⟩
    · rcases proceed_eq_some atSecond with ⟨rfl, alsoNow⟩ | ⟨secondOther, old⟩
      · cases now.symm.trans alsoNow
        cases oneToggles.symm.trans otherToggles
        rfl
      · rcases toggles one id here now oneToggles with ⟨held, atThread, heldToggles⟩ | none
        · exact before.direction first second held other id here there atThread old heldToggles
            otherToggles
        · have different : there ≠ !here := fun same => none second other old (same ▸ otherToggles)
          simpa using different.symm
    · rcases proceed_eq_some atSecond with ⟨rfl, now⟩ | ⟨secondOther, alsoOld⟩
      · rcases toggles other id there now otherToggles with ⟨held, atThread, heldToggles⟩ | none
        · exact before.direction first second one held id here there old atThread oneToggles
            heldToggles
        · have different : here ≠ !there := fun same => none first one old (same ▸ oneToggles)
          simpa using different
      · exact before.direction first second one other id here there old alsoOld oneToggles
          otherToggles

/-- A call with no flag to set is no record's witness. -/
theorem Coherent.recorded_elsewhere (before : Coherent base p calls book) (thread : Nat)
    (quiet : ∀ old, calls[thread]? = some old → old.flags = none) {patch : Patch}
    (member : patch ∈ p.registry.patches) :
    ∃ up, book patch.id = some { patch.layer with up := up } ∧ (up = patch.enabled ∨
      ∃ (other : Nat) (stage : Stage), other ≠ thread ∧ calls[other]? = some stage ∧
        stage.flags = some (patch.id, up)) := by
  obtain ⟨up, shown, same | ⟨other, stage, present, flags⟩⟩ := before.recorded patch member
  · exact ⟨up, shown, Or.inl same⟩
  · refine ⟨up, shown, Or.inr ⟨other, stage, ?_, present, flags⟩⟩
    rintro rfl
    exact Option.some_ne_none _ (flags.symm.trans (quiet stage present))

theorem Coherent.booked_elsewhere (before : Coherent base p calls book) (thread : Nat)
    (quiet : ∀ old, calls[thread]? = some old → old.records = none) {id : Nat}
    {layer : Layer UInt8} (present : book id = some layer) :
    (∃ patch ∈ p.registry.patches, patch.id = id) ∨
      ∃ (other : Nat) (stage : Stage), other ≠ thread ∧ calls[other]? = some stage ∧
        stage.records = some id := by
  rcases before.booked id layer present with inTable | ⟨other, stage, pending, records⟩
  · exact Or.inl inTable
  · refine Or.inr ⟨other, stage, ?_, pending, records⟩
    rintro rfl
    exact Option.some_ne_none _ (records.symm.trans (quiet stage pending))

/-- A step of one call that leaves the registry, the target and the book alone. -/
theorem Coherent.idle (before : Coherent base p calls book) (thread : Nat) (progress : Progress)
    (quiet : ∀ old, calls[thread]? = some old → old.flags = none ∧ old.records = none)
    (mine : ∀ stage, progress = .pending stage → Stands base book p.registry stage)
    (claims : ∀ stage id, progress = .pending stage → stage.claims = some id →
      ∃ old, calls[thread]? = some old ∧ old.claims = some id)
    (toggles : ∀ stage id enabled, progress = .pending stage →
      stage.toggles = some (id, enabled) →
        ∀ (other : Nat) (stage : Stage), calls[other]? = some stage →
          stage.toggles ≠ some (id, !enabled)) :
    Coherent base p (proceed thread calls progress) book := by
  refine before.moved thread progress before.ground
    (fun other stage _ present => before.stands other stage present) mine
    (fun stage id now held => Or.inl (claims stage id now held))
    (fun stage id enabled now held => Or.inr (toggles stage id enabled now held)) ?_ ?_
  · intro patch member
    obtain ⟨up, shown, witness⟩ :=
      before.recorded_elsewhere thread (fun old present => (quiet old present).1) member
    exact ⟨up, shown, witness.imp_right Or.inr⟩
  · intro id layer present
    exact (before.booked_elsewhere thread (fun old pending => (quiet old pending).2) present).imp_right
      Or.inr

theorem Coherent.known (before : Coherent base p calls book) {patch : Patch}
    (member : patch ∈ p.registry.patches) : Known p.registry patch.id :=
  ⟨(before.ground.tidy.numbered patch member).2, fun range reserved same =>
    (before.ground.numbered range reserved).2.2 patch member same.symm⟩

theorem not_toggling {s : Shared} {id : Nat} {enabled : Bool}
    (idle : toggling id enabled s = false) {thread : Nat} {stage : Stage}
    (present : s.calls[thread]? = some stage) : stage.toggles ≠ some (id, enabled) := by
  intro same
  have member := TreeMap.mem_toList_iff_getElem?_eq_some.mpr present
  have none := List.any_eq_false.mp idle _ member
  simp [same] at none

theorem follow_pending {id : Nat} {reply : Result Unit} {next : Next} {stage : Stage}
    (pending : follow id reply next = .pending stage) :
    (stage = .erase id ∧ reply = .ok ()) ∨
      ∃ rest failures total, stage = .restore rest failures total := by
  cases next with
  | done => contradiction
  | erase =>
      cases reply with
      | error failure => contradiction
      | ok reply =>
          cases pending
          exact Or.inl ⟨rfl, rfl⟩
  | restore rest failures total =>
      cases reply with
      | error failure =>
          cases pending
          exact Or.inr ⟨rest, failures + 1, total, rfl⟩
      | ok reply =>
          cases pending
          exact Or.inr ⟨rest, failures, total, rfl⟩

theorem follow_quiet {id : Nat} {reply : Result Unit} {next : Next} {stage : Stage}
    (pending : follow id reply next = .pending stage) :
    stage.claims = none ∧ stage.toggles = none := by
  rcases follow_pending pending with ⟨rfl, _⟩ | ⟨rest, failures, total, rfl⟩
  · exact ⟨rfl, rfl⟩
  · exact ⟨rfl, rfl⟩

theorem stands_follow {r : Registry} {id : Nat} {reply : Result Unit} {next : Next} {stage : Stage}
    (pending : follow id reply next = .pending stage) (known : reply = .ok () → Known r id) :
    Stands base book r stage := by
  rcases follow_pending pending with ⟨rfl, ok⟩ | ⟨rest, failures, total, rfl⟩
  · exact known ok
  · trivial

/-- The patch a call is about. -/
def Stage.subject : Stage → Option Nat
  | .applyRead claim => some claim.id
  | .applyWrite claim _ => some claim.id
  | .applyRecord claim _ => some claim.id
  | .applyRelease id _ => some id
  | .toggleWrite id _ _ _ _ => some id
  | .toggleFlag id _ _ => some id
  | .erase id => some id
  | .restore .. => none

/-- A turned page matters to no call about another patch, as long as none of them is
about to write there. -/
theorem Stands.turn {r : Registry} {stage : Stage} {id : Nat} {page : Option (Layer UInt8)}
    (stands : Stands base book r stage) (other : stage.subject ≠ some id)
    (unused : ∀ subject enabled address bytes next,
      stage = .toggleWrite subject enabled address bytes next → book subject = none →
        ∀ layer, page = some layer → layer.Clear address bytes.length) :
    Stands base (Function.update book id page) r stage := by
  have same : ∀ subject, stage.subject = some subject →
      Function.update book id page subject = book subject := by
    intro subject about
    apply Function.update_of_ne
    rintro rfl
    exact other about
  cases stage with
  | applyRead claim => simpa only [Stands, same claim.id rfl] using stands
  | applyWrite claim original => simpa only [Stands, same claim.id rfl] using stands
  | applyRecord claim original => simpa only [Stands, same claim.id rfl] using stands
  | applyRelease subject failure => simpa only [Stands, same subject rfl] using stands
  | toggleWrite subject enabled address bytes next =>
      obtain ⟨known, aimed⟩ := stands
      have here := same subject rfl
      refine ⟨known, ⟨?_, ?_, ?_, ?_, ?_⟩⟩
      · rw [here]
        exact aimed.layer
      · rw [here]
        exact aimed.off
      · rw [here]
        exact aimed.genuine
      · rw [here]
        intro gone place layer present
        by_cases turned : place = id
        · subst turned
          rw [Function.update_self] at present
          exact unused subject enabled address bytes next rfl gone layer present
        · rw [Function.update_of_ne turned] at present
          exact aimed.unused gone place layer present
      · rw [here]
        exact aimed.unclaimed
  | toggleFlag subject enabled next => simpa only [Stands, same subject rfl] using stands
  | erase subject => exact stands
  | restore => trivial

/-- A call's patch is known or holds a reservation, never both. -/
theorem Coherent.subject_cases (before : Coherent base p calls book) {thread id : Nat}
    {stage : Stage} (present : calls[thread]? = some stage) (about : stage.subject = some id) :
    (stage.claims = some id ∧ ∃ range ∈ p.registry.reserved, range.id = id) ∨
      (stage.claims = none ∧ Known p.registry id) := by
  have stands := before.stands thread stage present
  cases stage with
  | applyRead claim => exact Or.inl ⟨about, _, stands.1, Option.some.inj about⟩
  | applyWrite claim original => exact Or.inl ⟨about, _, stands.1, Option.some.inj about⟩
  | applyRecord claim original => exact Or.inl ⟨about, _, stands.1, Option.some.inj about⟩
  | applyRelease subject failure =>
      cases about
      exact Or.inl ⟨rfl, stands.1⟩
  | toggleWrite subject enabled address bytes next =>
      cases about
      exact Or.inr ⟨rfl, stands.1⟩
  | toggleFlag subject enabled next =>
      cases about
      exact Or.inr ⟨rfl, stands.1⟩
  | erase subject =>
      cases about
      exact Or.inr ⟨rfl, stands⟩
  | restore => contradiction

/-- A call stands on its own reservation and minds every other. -/
theorem Stands.frame {r after : Registry} {stage : Stage} (stands : Stands base book r stage)
    (kept : ∀ range ∈ r.reserved, stage.claims = some range.id → range ∈ after.reserved)
    (fewer : ∀ range ∈ after.reserved, range ∈ r.reserved) (nextId : after.nextId = r.nextId) :
    Stands base book after stage := by
  have known : ∀ id, Known r id → Known after id := fun id known =>
    ⟨nextId ▸ known.1, fun range member => known.2 range (fewer range member)⟩
  cases stage with
  | applyRead claim => exact ⟨kept _ stands.1 rfl, stands.2⟩
  | applyWrite claim original => exact ⟨kept _ stands.1 rfl, stands.2⟩
  | applyRecord claim original => exact ⟨kept _ stands.1 rfl, stands.2⟩
  | applyRelease subject failure =>
      obtain ⟨⟨range, member, same⟩, unbooked⟩ := stands
      exact ⟨⟨range, kept range member (congrArg some same.symm), same⟩, unbooked⟩
  | toggleWrite subject enabled address bytes next =>
      exact ⟨known subject stands.1, { stands.2 with
        unclaimed := fun gone range member => stands.2.unclaimed gone range (fewer range member) }⟩
  | toggleFlag subject enabled next => exact ⟨known subject stands.1, stands.2⟩
  | erase subject => exact known subject stands
  | restore => trivial

theorem Stands.release {r after : Registry} {stage : Stage} {id : Nat}
    (stands : Stands base book r stage) (other : stage.claims ≠ some id)
    (reserved : after.reserved = r.reserved.filter fun range => range.id != id)
    (nextId : after.nextId = r.nextId) : Stands base book after stage := by
  refine stands.frame ?_ ?_ nextId
  · intro range member claims
    rw [reserved]
    refine List.mem_filter.mpr ⟨member, ?_⟩
    rw [bne_iff_ne]
    rintro rfl
    exact other claims
  · intro range member
    rw [reserved] at member
    exact (List.mem_filter.mp member).1

theorem Ground.release (ground : Ground base p book) (id : Nat) :
    Ground base ⟨PatchRegistry.release id p.registry, p.memory⟩ book := by
  have fewer : ∀ range ∈ (PatchRegistry.release id p.registry).reserved, range ∈ p.registry.reserved :=
    fun range member => (List.mem_filter.mp member).1
  exact ⟨ground.tidy.congr rfl (Nat.le_refl _), ground.laid, ground.positive,
    fun range member => ground.numbered range (fewer range member),
    fun first inFirst second inSecond =>
      ground.apart first (fewer first inFirst) second (fewer second inSecond),
    fun range member => ground.clear range (fewer range member)⟩

end PointerLab.PatchRegistry
