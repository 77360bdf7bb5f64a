import PointerLab.PatchRegistryBook

set_option autoImplicit false

/- What each section and each access of a call does to the book. -/
namespace PointerLab.PatchRegistry

open Overlay Layers TargetSession Std

variable {base : Nat → UInt8} {book : Nat → Option (Layer UInt8)} {p : Patched}
  {calls : TreeMap Nat Stage}

/-- Looking a patch up moves nothing, and what it finds is aimed at its layer. -/
theorem Coherent.beginToggle {s : Shared} (before : Coherent base s.patched s.calls book)
    (thread id : Nat) (enabled : Bool) (next : Next) (careful : opposes id enabled s = false)
    (quiet : ∀ old, s.calls[thread]? = some old → old.flags = none ∧ old.records = none) :
    Coherent base s.patched
      (proceed thread s.calls (beginToggle id enabled next s.patched.registry)) book := by
  unfold PatchRegistry.beginToggle
  split
  · apply before.idle thread _ quiet
    · intro stage pending
      exact stands_follow pending fun refused => absurd refused (by simp [fail])
    · intro stage id pending held
      exact absurd held (by simp [(follow_quiet pending).1])
    · intro stage id enabled pending held
      exact absurd held (by simp [(follow_quiet pending).2])
  · rename_i found
    apply before.idle thread _ quiet
    · intro stage pending
      refine stands_follow pending fun _ => ?_
      unfold lookupToggle at found
      split at found
      · contradiction
      · rename_i patch present
        have same : patch.id = id := by simpa using List.find?_some present
        exact same ▸ before.known (List.mem_of_find?_eq_some present)
    · intro stage id pending held
      exact absurd held (by simp [(follow_quiet pending).1])
    · intro stage id enabled pending held
      exact absurd held (by simp [(follow_quiet pending).2])
  · rename_i address bytes found
    apply before.idle thread _ quiet
    · rintro stage ⟨⟩
      obtain ⟨layer, present, _, rfl, rfl⟩ := lookupToggle_write found
      obtain ⟨patch, member, rfl, rfl⟩ := layersOf_eq_some present
      obtain ⟨up, shown, _⟩ := before.recorded patch member
      refine ⟨before.known member, ?_, ?_, ?_, ?_, ?_⟩
      · intro layer now
        rw [shown] at now
        cases now
        exact ⟨rfl, rfl⟩
      all_goals
        intro gone
        exact absurd (shown.symm.trans gone) (Option.some_ne_none _)
    · rintro stage id ⟨⟩ held
      contradiction
    · rintro stage other direction ⟨⟩ held
      cases held
      intro thread stage present
      rw [opposes, found] at careful
      exact not_toggling careful present

theorem Stage.record_of_records {stage : Stage} {id : Nat} (records : stage.records = some id) :
    ∃ claim original, stage = .applyRecord claim original ∧ claim.id = id := by
  cases stage with
  | applyRecord claim original => exact ⟨claim, original, rfl, Option.some.inj records⟩
  | applyRead => contradiction
  | applyWrite => contradiction
  | applyRelease => contradiction
  | toggleWrite => contradiction
  | toggleFlag => contradiction
  | erase => contradiction
  | restore => contradiction

/-- The next number is on no page of the book. -/
theorem Coherent.unbooked (before : Coherent base p calls book) :
    book p.registry.nextId = none := by
  cases present : book p.registry.nextId with
  | none => rfl
  | some layer =>
      rcases before.booked _ layer present with ⟨patch, member, same⟩ |
        ⟨thread, stage, pending, records⟩
      · have numbered := before.ground.tidy.numbered patch member
        omega
      · obtain ⟨claim, original, rfl, same⟩ := Stage.record_of_records records
        have below := before.claim_below pending rfl
        omega

/-- A range the overlap check lets through is clear of everything in the book. -/
theorem Coherent.clear_of_not_overlaps (before : Coherent base p calls book) {address size : Nat}
    (clear : overlaps address size 0 p.registry = false)
    (inUserSpace : address + size ≤ userSpaceEnd) {id : Nat} {layer : Layer UInt8}
    (present : book id = some layer) : layer.Clear address size := by
  rcases before.booked id layer present with ⟨patch, member, rfl⟩ |
    ⟨thread, stage, pending, records⟩
  · obtain ⟨up, shown, _⟩ := before.recorded patch member
    rw [present] at shown
    cases shown
    exact apart_of_not_overlaps before.ground.tidy clear inUserSpace member
  · obtain ⟨claim, original, rfl, rfl⟩ := Stage.record_of_records records
    obtain ⟨claimed, shown, below⟩ := before.stands thread _ pending
    have sameLength := before.ground.laid.sameLength _ _ shown
    rw [present] at shown
    cases shown
    have apart := apart_of_not_reserved clear inUserSpace claimed (by rw [sameLength]; exact below)
    rwa [sameLength] at apart

theorem stray_apart {s : Shared} {address size thread id place : Nat} {enabled : Bool}
    {bytes : List UInt8} {next : Next} (careful : trespassed address size s = false)
    (present : s.calls[thread]? = some (.toggleWrite id enabled place bytes next))
    (gone : ∀ patch ∈ s.patched.registry.patches, patch.id ≠ id) :
    Apart place bytes.length address size := by
  have member := TreeMap.mem_toList_iff_getElem?_eq_some.mpr present
  have none := List.any_eq_false.mp careful _ member
  have noRecord : s.patched.registry.patches.any (fun patch => patch.id == id) = false := by
    simpa using gone
  simp only [noRecord, Bool.not_false, Bool.true_and, Bool.and_eq_true, decide_eq_true_eq, not_and,
    Nat.not_lt] at none
  unfold Apart
  omega

theorem known_reserved {r : Registry} {id address size : Nat} (known : Known r id) :
    Known { r with
      nextId := r.nextId + 1, reserved := r.reserved ++ [⟨r.nextId, address, size⟩] } id := by
  refine ⟨Nat.lt_succ_of_lt known.1, ?_⟩
  intro range member
  rcases List.mem_append.mp member with old | new
  · exact known.2 range old
  · cases List.mem_singleton.mp new
    exact Nat.ne_of_gt known.1

theorem Coherent.reserve {s : Shared} (before : Coherent base s.patched s.calls book)
    {thread address id : Nat} {bytes : List UInt8} {claimed : Registry}
    (description originalText : String) (nonempty : 0 < bytes.length)
    (careful : trespassed address bytes.length s = false) (fresh : s.calls[thread]? = none)
    (reserved : reserve address bytes.length s.patched.registry = (claimed, .ok id)) :
    Coherent base ⟨claimed, s.patched.memory⟩ (proceed thread s.calls
      (.pending (.applyRead ⟨id, address, bytes, description, originalText⟩))) book := by
  obtain ⟨clear, rfl, rfl⟩ := reserve_ok reserved
  apply before.moved thread
  · refine ⟨before.ground.tidy.congr rfl (Nat.le_succ _), before.ground.laid, Nat.succ_pos _,
      ?_, ?_, ?_⟩
    · intro range member
      rcases List.mem_append.mp member with old | new
      · have numbered := before.ground.numbered range old
        exact ⟨numbered.1, Nat.lt_succ_of_lt numbered.2.1, numbered.2.2⟩
      · cases List.mem_singleton.mp new
        exact ⟨before.ground.positive, Nat.lt_succ_self _, fun patch inTable =>
          Nat.ne_of_lt (before.ground.tidy.numbered patch inTable).2⟩
    · intro first firstMember second secondMember different firstBelow secondBelow
      rcases List.mem_append.mp firstMember with firstOld | firstNew
      · rcases List.mem_append.mp secondMember with secondOld | secondNew
        · exact before.ground.apart first firstOld second secondOld different firstBelow secondBelow
        · cases List.mem_singleton.mp secondNew
          exact (apart_of_not_reserved clear secondBelow firstOld firstBelow).symm
      · cases List.mem_singleton.mp firstNew
        rcases List.mem_append.mp secondMember with secondOld | secondNew
        · exact apart_of_not_reserved clear firstBelow secondOld secondBelow
        · cases List.mem_singleton.mp secondNew
          exact absurd rfl different
    · intro range member below id layer different present
      rcases List.mem_append.mp member with old | new
      · exact before.ground.clear range old below id layer different present
      · cases List.mem_singleton.mp new
        exact before.clear_of_not_overlaps clear below present
  · intro other stage _ present
    have stands := before.stands other stage present
    cases stage with
    | applyRead claim => exact ⟨List.mem_append_left _ stands.1, stands.2⟩
    | applyWrite claim original => exact ⟨List.mem_append_left _ stands.1, stands.2⟩
    | applyRecord claim original => exact ⟨List.mem_append_left _ stands.1, stands.2⟩
    | applyRelease id failure =>
        obtain ⟨⟨range, member, same⟩, unbooked⟩ := stands
        exact ⟨⟨range, List.mem_append_left _ member, same⟩, unbooked⟩
    | toggleWrite id enabled place bytes next =>
        obtain ⟨known, aimed⟩ := stands
        refine ⟨known_reserved known, { aimed with unclaimed := ?_ }⟩
        intro gone range member below
        rcases List.mem_append.mp member with old | new
        · exact aimed.unclaimed gone range old below
        · cases List.mem_singleton.mp new
          refine stray_apart careful present fun patch inTable same => ?_
          obtain ⟨up, shown, _⟩ := before.recorded patch inTable
          rw [same, gone] at shown
          contradiction
    | toggleFlag id enabled next => exact ⟨known_reserved stands.1, stands.2⟩
    | erase id => exact known_reserved stands
    | restore => trivial
  · rintro stage ⟨⟩
    exact ⟨List.mem_append_right _ (List.mem_singleton_self _), nonempty, before.unbooked⟩
  · rintro stage id ⟨⟩ held
    exact Or.inr (Option.some.inj held).symm
  · rintro stage id enabled ⟨⟩ held
    contradiction
  · intro patch member
    obtain ⟨up, shown, witness⟩ := before.recorded_elsewhere thread
      (fun old present => absurd (fresh.symm.trans present) (Option.some_ne_none old).symm) member
    exact ⟨up, shown, witness.imp_right Or.inr⟩
  · intro id layer present
    exact (before.booked_elsewhere thread (fun old pending =>
      absurd (fresh.symm.trans pending) (Option.some_ne_none old).symm) present).imp_right Or.inr

/-- The write of `apply` puts the patch on the book. -/
theorem Coherent.written (before : Coherent base p calls book) {thread : Nat} {claim : Claim}
    {original : List UInt8} (present : calls[thread]? = some (.applyWrite claim original)) :
    Coherent base ⟨p.registry, overlay p.memory claim.address claim.bytes⟩
      (proceed thread calls (.pending (.applyRecord claim original)))
      (Function.update book claim.id (some ⟨claim.address, original, claim.bytes, true⟩)) := by
  obtain ⟨claimed, _, unbooked, genuine, inUserSpace⟩ := before.stands thread _ present
  have clear : ∀ id layer, book id = some layer → layer.Clear claim.address claim.bytes.length := by
    intro id layer shown
    refine before.ground.clear _ claimed inUserSpace id layer ?_ shown
    rintro rfl
    exact Option.some_ne_none _ (shown.symm.trans unbooked)
  have laid := before.ground.laid.put claim.id claim.address claim.bytes unbooked clear
  rw [← genuine] at laid
  have length : original.length = claim.bytes.length := by rw [genuine, slice_length]
  apply before.moved thread
  · refine ⟨before.ground.tidy, laid, before.ground.positive, before.ground.numbered,
      before.ground.apart, ?_⟩
    intro range member below id layer different shown
    rcases update_eq_some shown with ⟨rfl, rfl⟩ | ⟨_, old⟩
    · have apart := before.ground.apart range member _ claimed different.symm below inUserSpace
      simpa only [Layer.Clear, length] using apart
    · exact before.ground.clear range member below id layer different old
  · intro other stage different pending
    apply (before.stands other stage pending).turn
    · intro about
      rcases before.subject_cases pending about with ⟨claims, _⟩ | ⟨_, known⟩
      · exact different (before.distinct other thread stage _ claim.id pending present claims rfl)
      · exact known.2 _ claimed rfl
    · rintro subject enabled address bytes next rfl gone layer ⟨⟩
      have aimed := (before.stands other _ pending).2
      have apart := aimed.unclaimed gone _ claimed inUserSpace
      simpa only [Layer.Clear, length] using apart
  · rintro stage ⟨⟩
    refine ⟨claimed, Function.update_self .., ?_⟩
    rw [length]
    exact inUserSpace
  · rintro stage id ⟨⟩ held
    exact Or.inl ⟨_, present, held⟩
  · rintro stage id enabled ⟨⟩ held
    contradiction
  · intro patch member
    have different : patch.id ≠ claim.id :=
      (before.ground.numbered _ claimed).2.2 patch member
    obtain ⟨up, shown, witness⟩ := before.recorded_elsewhere thread
      (fun old pending => by cases present.symm.trans pending; rfl) member
    exact ⟨up, (Function.update_of_ne different ..).trans shown, witness.imp_right Or.inr⟩
  · intro id layer shown
    rcases update_eq_some shown with ⟨rfl, rfl⟩ | ⟨_, old⟩
    · exact Or.inr (Or.inl ⟨_, rfl, rfl⟩)
    · exact (before.booked_elsewhere thread
        (fun stage pending => by cases present.symm.trans pending; rfl) old).imp_right Or.inr

/-- A failed `apply` gives its range back. -/
theorem Coherent.released (before : Coherent base p calls book) {thread id : Nat}
    {failure : Failure} (reply : Result (Option Nat))
    (present : calls[thread]? = some (.applyRelease id failure)) :
    Coherent base ⟨release id p.registry, p.memory⟩ (proceed thread calls (.finished reply))
      book := by
  apply before.moved thread (.finished reply) (before.ground.release id)
  · intro other stage different pending
    refine (before.stands other stage pending).release ?_ rfl rfl
    exact fun claims => different (before.distinct other thread stage _ id pending present claims rfl)
  · nofun
  · nofun
  · nofun
  · intro patch member
    obtain ⟨up, shown, witness⟩ := before.recorded_elsewhere thread
      (fun old pending => by cases present.symm.trans pending; rfl) member
    exact ⟨up, shown, witness.imp_right Or.inr⟩
  · intro id layer shown
    exact (before.booked_elsewhere thread
      (fun stage pending => by cases present.symm.trans pending; rfl) shown).imp_right Or.inr

/-- The last section of `apply` records what the book has. -/
theorem Coherent.recordPatch (before : Coherent base p calls book) {thread : Nat} {claim : Claim}
    {original : List UInt8} (reply : Result (Option Nat))
    (present : calls[thread]? = some (.applyRecord claim original)) :
    Coherent base
      ⟨record ⟨claim.id, claim.address, original, claim.bytes, claim.description,
        claim.originalText, true⟩ p.registry, p.memory⟩
      (proceed thread calls (.finished reply)) book := by
  obtain ⟨claimed, shown, inUserSpace⟩ := before.stands thread _ present
  have numbered := before.ground.numbered _ claimed
  have released := before.ground.release claim.id
  apply before.moved thread (.finished reply)
  · refine ⟨?_, released.laid, released.positive, ?_, released.apart, released.clear⟩
    · exact before.ground.tidy.record numbered.2.2 ⟨numbered.1, numbered.2.1⟩ inUserSpace
    · intro range member
      have old := released.numbered range member
      refine ⟨old.1, old.2.1, ?_⟩
      intro patch inTable
      rcases List.mem_append.mp inTable with recorded | new
      · exact old.2.2 patch recorded
      · cases List.mem_singleton.mp new
        have other := (List.mem_filter.mp member).2
        exact (bne_iff_ne.mp other).symm
  · intro other stage different pending
    refine (before.stands other stage pending).release ?_ rfl rfl
    exact fun claims =>
      different (before.distinct other thread stage _ claim.id pending present claims rfl)
  · nofun
  · nofun
  · nofun
  · intro patch member
    rcases List.mem_append.mp member with recorded | new
    · obtain ⟨up, onBook, witness⟩ := before.recorded_elsewhere thread
        (fun old pending => by cases present.symm.trans pending; rfl) recorded
      exact ⟨up, onBook, witness.imp_right Or.inr⟩
    · cases List.mem_singleton.mp new
      exact ⟨true, shown, Or.inl rfl⟩
  · intro id layer onBook
    rcases before.booked id layer onBook with ⟨patch, member, same⟩ |
      ⟨other, stage, pending, records⟩
    · exact Or.inl ⟨patch, List.mem_append_left _ member, same⟩
    · by_cases here : other = thread
      · subst here
        cases present.symm.trans pending
        exact Or.inl ⟨_, List.mem_append_right _ (List.mem_singleton_self _),
          Option.some.inj records⟩
      · exact Or.inr (Or.inr ⟨other, stage, here, pending, records⟩)

/-- The last section of `setEnabled` sets the flag to what the book has. -/
theorem Coherent.flagged (before : Coherent base p calls book) {thread id : Nat} {enabled : Bool}
    {next : Next} (present : calls[thread]? = some (.toggleFlag id enabled next)) :
    Coherent base ⟨flag id enabled p.registry, p.memory⟩
      (proceed thread calls (follow id (.ok ()) next)) book := by
  obtain ⟨known, turned⟩ := before.stands thread _ present
  have ids := before.ground.tidy.ids
  apply before.moved thread
  · refine ⟨before.ground.tidy.flag id enabled, before.ground.laid, before.ground.positive, ?_,
      before.ground.apart, before.ground.clear⟩
    intro range member
    have numbered := before.ground.numbered range member
    refine ⟨numbered.1, numbered.2.1, ?_⟩
    intro patch inTable
    obtain ⟨old, inOld, same, _⟩ := mem_markEnabled ids inTable
    rw [same]
    exact numbered.2.2 old inOld
  · exact fun other stage _ pending =>
      (before.stands other stage pending).frame (fun _ member _ => member) (fun _ member => member) rfl
  · exact fun stage pending => stands_follow pending fun _ => known
  · intro stage id pending held
    exact absurd held (by simp [(follow_quiet pending).1])
  · intro stage id enabled pending held
    exact absurd held (by simp [(follow_quiet pending).2])
  · intro patch member
    obtain ⟨old, inOld, same, flagged, unflagged⟩ := mem_markEnabled ids member
    obtain ⟨up, shown, witness⟩ := before.recorded old inOld
    by_cases here : patch.id = id
    · refine ⟨up, ?_, Or.inl ?_⟩
      · rw [same]
        exact shown
      · rw [flagged here]
        rw [same] at here
        exact turned _ (here ▸ shown)
    · cases unflagged here
      refine ⟨up, shown, witness.imp_right fun ⟨other, stage, pending, flags⟩ => ?_⟩
      refine Or.inr ⟨other, stage, ?_, pending, flags⟩
      rintro rfl
      cases present.symm.trans pending
      cases flags
      exact here rfl
  · intro other layer shown
    rcases before.booked_elsewhere thread
      (fun stage pending => by cases present.symm.trans pending; rfl) shown with
      ⟨patch, member, same⟩ | elsewhere
    · have inIds : other ∈ (markEnabled id enabled p.registry.patches).map Patch.id := by
        rw [markEnabled_ids, ← same]
        exact List.mem_map_of_mem member
      exact Or.inl (List.mem_map.mp inIds)
    · exact Or.inr (Or.inr elsewhere)

theorem Stage.toggles_of_flags {stage : Stage} {id : Nat} {enabled : Bool}
    (flags : stage.flags = some (id, enabled)) : stage.toggles = some (id, enabled) := by
  cases stage with
  | toggleFlag subject direction next => exact flags
  | applyRead => contradiction
  | applyWrite => contradiction
  | applyRecord => contradiction
  | applyRelease => contradiction
  | toggleWrite => contradiction
  | erase => contradiction
  | restore => contradiction

/-- A patch that is disabled and that nobody is enabling is off in the target. -/
theorem Coherent.off {s : Shared} (before : Coherent base s.patched s.calls book) {id : Nat}
    (known : Known s.patched.registry id) (careful : strands id s = false)
    (layer : Layer UInt8) (shown : book id = some layer) : layer.up = false := by
  rw [strands, Bool.or_eq_false_iff] at careful
  rcases before.booked id layer shown with ⟨patch, member, rfl⟩ |
    ⟨thread, stage, pending, records⟩
  · obtain ⟨up, now, witness⟩ := before.recorded patch member
    cases shown.symm.trans now
    rcases witness with same | ⟨thread, stage, pending, flags⟩
    · have disabled := List.any_eq_false.mp careful.1 patch member
      rw [show (patch.id == patch.id) = true from beq_self_eq_true _, Bool.true_and] at disabled
      exact same.trans (Bool.not_eq_true _ ▸ disabled)
    · have idle := not_toggling careful.2 pending
      rw [Stage.toggles_of_flags flags] at idle
      cases up with
      | false => rfl
      | true => exact absurd rfl idle
  · obtain ⟨claim, original, rfl, rfl⟩ := Stage.record_of_records records
    exact absurd rfl (known.2 _ (before.stands thread _ pending).1)

theorem mem_erase {r : Registry} {id : Nat} {patch : Patch} :
    patch ∈ (erase id r).patches ↔ patch ∈ r.patches ∧ patch.id ≠ id := by
  simp [PatchRegistry.erase]

theorem Ground.erase (ground : Ground base p book) {id : Nat}
    (off : ∀ layer, book id = some layer → layer.up = false) :
    Ground base ⟨PatchRegistry.erase id p.registry, p.memory⟩ (Function.update book id none) := by
  refine ⟨ground.tidy.erase id, ground.laid.drop id off, ground.positive, ?_, ground.apart, ?_⟩
  · intro range member
    have numbered := ground.numbered range member
    exact ⟨numbered.1, numbered.2.1, fun patch inTable =>
      numbered.2.2 patch (mem_erase.mp inTable).1⟩
  · intro range member below other layer different shown
    exact ground.clear range member below other layer different (update_none_eq_some shown).2

/-- A patch about to be switched off stays aimed when its page is torn out: what it is
about to write is then the target's own. -/
theorem Aimed.torn (ground : Ground base p book) {id address : Nat} {bytes : List UInt8}
    (known : Known p.registry id) (aimed : Aimed base book p.registry id false address bytes) :
    Aimed base (Function.update book id none) p.registry id false address bytes := by
  cases shown : book id with
  | none =>
      rw [← shown, Function.update_eq_self]
      exact aimed
  | some layer =>
      obtain ⟨rfl, rfl⟩ := aimed.layer layer shown
      refine ⟨?_, fun _ => rfl, fun _ => ?_, fun _ => ?_, fun _ => ?_⟩
      · intro other gone
        exact absurd rfl (update_none_eq_some gone).1
      · exact ground.laid.genuine id layer shown
      · intro other neighbour present
        obtain ⟨different, old⟩ := update_none_eq_some present
        exact ground.laid.apart other id neighbour layer different old shown
      · intro range member below
        have clear := ground.clear range member below id layer (known.2 range member).symm shown
        exact Apart.symm clear

/-- What any call relies on stands when the page of a known patch is torn out, unless the
call is about to switch that patch on. -/
theorem Stands.torn (ground : Ground base p book) {id : Nat} {stage : Stage}
    (known : Known p.registry id) (idle : stage.toggles ≠ some (id, true))
    (stands : Stands base book p.registry stage) :
    Stands base (Function.update book id none) p.registry stage := by
  by_cases about : stage.subject = some id
  · cases stage with
    | toggleWrite subject enabled address bytes next =>
        cases about
        cases enabled with
        | true => exact absurd rfl idle
        | false => exact ⟨known, stands.2.torn ground known⟩
    | toggleFlag subject enabled next =>
        cases about
        exact ⟨known, fun layer gone => absurd rfl (update_none_eq_some gone).1⟩
    | erase subject =>
        cases about
        exact known
    | restore => contradiction
    | applyRead claim =>
        cases about
        exact absurd rfl (known.2 _ stands.1)
    | applyWrite claim original =>
        cases about
        exact absurd rfl (known.2 _ stands.1)
    | applyRecord claim original =>
        cases about
        exact absurd rfl (known.2 _ stands.1)
    | applyRelease subject failure =>
        cases about
        obtain ⟨⟨range, member, same⟩, _⟩ := stands
        exact absurd same (known.2 range member)
  · apply stands.turn about
    rintro _ _ _ _ _ _ _ layer ⟨⟩

/-- The last section of `remove` forgets a layer that is off. -/
theorem Coherent.erased {s : Shared} (before : Coherent base s.patched s.calls book)
    {thread id : Nat} (reply : Result (Option Nat))
    (present : s.calls[thread]? = some (.erase id)) (careful : strands id s = false) :
    Coherent base ⟨erase id s.patched.registry, s.patched.memory⟩
      (proceed thread s.calls (.finished reply)) (Function.update book id none) := by
  have known : Known s.patched.registry id := before.stands thread _ present
  have off := before.off known careful
  rw [strands, Bool.or_eq_false_iff] at careful
  apply before.moved thread (.finished reply)
  · exact before.ground.erase off
  · intro other stage _ pending
    have stands := (before.stands other stage pending).torn before.ground known
      (not_toggling careful.2 pending)
    exact stands.frame (fun _ member _ => member) (fun _ member => member) rfl
  · nofun
  · nofun
  · nofun
  · intro patch member
    obtain ⟨inTable, different⟩ := mem_erase.mp member
    obtain ⟨up, shown, witness⟩ := before.recorded_elsewhere thread
      (fun old pending => by cases present.symm.trans pending; rfl) inTable
    exact ⟨up, (Function.update_of_ne different ..).trans shown, witness.imp_right Or.inr⟩
  · intro other layer shown
    obtain ⟨different, old⟩ := update_none_eq_some shown
    rcases before.booked_elsewhere thread
      (fun stage pending => by cases present.symm.trans pending; rfl) old with
      ⟨patch, member, rfl⟩ | elsewhere
    · exact Or.inl ⟨patch, mem_erase.mpr ⟨member, different⟩, rfl⟩
    · exact Or.inr (Or.inr elsewhere)

/-- The write of `setEnabled` turns the page of a patch that is on the book. -/
theorem Coherent.turned (before : Coherent base p calls book) {thread id : Nat} {enabled : Bool}
    {next : Next} {layer : Layer UInt8} (shown : book id = some layer)
    (present : calls[thread]? = some (.toggleWrite id enabled layer.address
      (if enabled then layer.cover else layer.under) next)) :
    Coherent base
      ⟨p.registry, overlay p.memory layer.address (if enabled then layer.cover else layer.under)⟩
      (proceed thread calls (.pending (.toggleFlag id enabled next)))
      (Function.update book id (some { layer with up := enabled })) := by
  obtain ⟨known, _⟩ := before.stands thread _ present
  apply before.moved thread
  · refine ⟨before.ground.tidy, before.ground.laid.show shown enabled, before.ground.positive,
      before.ground.numbered, before.ground.apart, ?_⟩
    intro range member below other neighbour different now
    rcases update_eq_some now with ⟨rfl, rfl⟩ | ⟨_, old⟩
    · exact before.ground.clear range member below other layer different shown
    · exact before.ground.clear range member below other neighbour different old
  · intro other stage different pending
    have stands := before.stands other stage pending
    by_cases about : stage.subject = some id
    · have held : stage.claims = none := by
        rcases before.subject_cases pending about with ⟨_, range, member, same⟩ | ⟨none, _⟩
        · exact absurd same (known.2 range member)
        · exact none
      cases stage with
      | toggleWrite subject direction address bytes follows =>
          cases about
          have aimed := stands.2.layer layer shown
          refine ⟨known, ⟨?_, ?_, ?_, ?_, ?_⟩⟩
          · intro now same
            rw [Function.update_self] at same
            cases same
            exact aimed
          all_goals
            intro gone
            simp at gone
      | toggleFlag subject direction follows =>
          cases about
          refine ⟨known, fun now same => ?_⟩
          rw [Function.update_self] at same
          cases same
          exact before.direction thread other _ _ id enabled direction present pending rfl rfl
      | erase subject =>
          cases about
          exact known
      | restore => contradiction
      | applyRead => contradiction
      | applyWrite => contradiction
      | applyRecord => contradiction
      | applyRelease => contradiction
    · apply stands.turn about
      rintro subject direction address bytes follows rfl gone now ⟨⟩
      exact stands.2.unused gone id layer shown
  · rintro stage ⟨⟩
    refine ⟨known, fun now same => ?_⟩
    rw [Function.update_self] at same
    cases same
    rfl
  · rintro stage other ⟨⟩ held
    contradiction
  · rintro stage other direction ⟨⟩ held
    exact Or.inl ⟨_, present, held⟩
  · intro patch member
    obtain ⟨up, now, witness⟩ := before.recorded_elsewhere thread
      (fun old pending => by cases present.symm.trans pending; rfl) member
    by_cases here : patch.id = id
    · subst here
      cases shown.symm.trans now
      exact ⟨enabled, Function.update_self .., Or.inr (Or.inl ⟨_, rfl, rfl⟩)⟩
    · exact ⟨up, (Function.update_of_ne here ..).trans now, witness.imp_right Or.inr⟩
  · intro other neighbour now
    have old : ∃ neighbour, book other = some neighbour := by
      rcases update_eq_some now with ⟨rfl, _⟩ | ⟨_, old⟩
      · exact ⟨layer, shown⟩
      · exact ⟨neighbour, old⟩
    obtain ⟨neighbour, old⟩ := old
    exact (before.booked_elsewhere thread
      (fun stage pending => by cases present.symm.trans pending; rfl) old).imp_right Or.inr

/-- A write for a patch that is off the book writes what is there. -/
theorem Coherent.strayed (before : Coherent base p calls book) {thread id address : Nat}
    {enabled : Bool} {bytes : List UInt8} {next : Next} (gone : book id = none)
    (present : calls[thread]? = some (.toggleWrite id enabled address bytes next)) :
    Coherent base ⟨p.registry, overlay p.memory address bytes⟩
      (proceed thread calls (.pending (.toggleFlag id enabled next))) book := by
  obtain ⟨known, aimed⟩ := before.stands thread _ present
  have unchanged : overlay p.memory address bytes = p.memory := by
    have clear := before.ground.laid.slice_clear address bytes.length (aimed.unused gone)
    rw [aimed.genuine gone]
    simp only [← clear, overlay_slice]
  rw [unchanged]
  apply before.idle thread
  · intro old pending
    cases present.symm.trans pending
    exact ⟨rfl, rfl⟩
  · rintro stage ⟨⟩
    exact ⟨known, fun layer shown => absurd (shown.symm.trans gone) (Option.some_ne_none layer)⟩
  · rintro stage other ⟨⟩ held
    contradiction
  · rintro stage other direction ⟨⟩ held thread stage pending opposite
    cases held
    have same := before.direction _ thread _ stage id enabled (!enabled) present pending rfl opposite
    cases enabled <;> contradiction

end PointerLab.PatchRegistry
