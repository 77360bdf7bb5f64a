import Mathlib.Data.Finset.Basic
import Mathlib.Data.Finset.Lattice.Lemmas
import PointerLab.UiCaches
import PointerLab.ValueRoundTrip

set_option autoImplicit false

/- The function keys that freeze rows: `GlobalHotkeys`, and `syncGlobalHotkeys`, `handleHotkeys`
and `WM_HOTKEY` of `ui/UiApp.cpp`. A key that the system has registered for the window comes as a
message whatever has the focus; any other comes only to a window that has it. -/
namespace PointerLab.UiHotkeys

open Digits Domain ProjectStore Revisions Runs UiCaches
open AddressListService (Editing)

def firstId : Nat := 1
def lastId : Nat := 12

/-- `GlobalHotkeys::idFor` -/
def idFor : Text → Option Nat
  | front :: digits =>
      if digits.isEmpty || (front != 'F' && front != 'f') then none
      else if !digits.all Char.isDigit then none
      else
        let id := number 10 digits
        if id < firstId || lastId < id then none else some id
  | [] => none

/-- `"F" + std::to_string(id)` -/
def keyName (id : Nat) : Text := 'F' :: Nat.toDigits 10 id

/-- What the rows want registered. -/
def wantedIds (entries : List AddressEntry) : Finset Nat :=
  (entries.filterMap fun entry => idFor entry.hotkey).toFinset

/-- The window and the system around it. -/
structure Desktop where
  list : Editing := {}
  /-- `hotkeyListRevision_` and `hotkeysRequested_` -/
  cache : Cache Unit (Finset Nat) := ⟨0, (), ∅⟩
  /-- `registered_` -/
  registered : Finset Nat := ∅
  /-- What `apply` has returned last: the window tells the user. -/
  refused : Finset Nat := ∅
  /-- What the system has registered for the window, and for other programs. -/
  system : Finset Nat := ∅
  taken : Finset Nat := ∅
  /-- What other programs had when `apply` was called last. -/
  rivals : Finset Nat := ∅

namespace Desktop

def owns (desktop : Desktop) (id : Nat) : Bool := id ∈ desktop.registered

/-- `GlobalHotkeys::apply`, of a window that is there: all that was registered is given back, which
`UnregisterHotKey` is taken to do, and what nobody else has is registered. -/
def apply (desktop : Desktop) (wanted : Finset Nat) : Desktop :=
  let system := desktop.system \ desktop.registered
  let asked := wanted.filter fun id => firstId ≤ id ∧ id ≤ lastId
  let accepted := asked.filter fun id => id ∉ desktop.taken ∧ id ∉ system
  { desktop with
    registered := accepted
    refused := asked \ accepted
    system := system ∪ accepted
    rivals := desktop.taken }

/-- `syncGlobalHotkeys`. Others may change the list between the look at its counter and the copy
of it. -/
def sync (desktop : Desktop) (during : List AddressListService.Event) : Desktop :=
  let later := run AddressListService.step desktop.list during
  let cache := watchedEntries.look (fun _ entries => wantedIds entries) desktop.cache ()
    desktop.list later
  let synced := { desktop with list := later, cache }
  if cache.shown = desktop.cache.shown then synced else synced.apply cache.shown

/-- The call of `toggleHotkey` for a key. -/
def toggling (id : Nat) : AddressListService.Event := .call (.toggleHotkey (keyName id))

/-- `toggleHotkey`, and what happens to the list until it returns: it visits the rows as the list
goes on. -/
def toggle (desktop : Desktop) (id : Nat) (meanwhile : List AddressListService.Event) : Desktop :=
  { desktop with list := run AddressListService.step desktop.list (toggling id :: meanwhile) }

/-- What `IsKeyPressed` says of the keys, and with a key that is pressed what happens to the list
until its rows are visited. -/
abbrev Keyboard := Nat → Option (List AddressListService.Event)

/-- One round of the loop in `handleHotkeys`. -/
def poll (pressed : Keyboard) (desktop : Desktop) (id : Nat) : Desktop :=
  if desktop.owns id then desktop
  else
    match pressed id with
    | some meanwhile => desktop.toggle id meanwhile
    | none => desktop

/-- F1 to F12, in the order of the loop. -/
def keys : List Nat := (List.range 12).map (· + 1)

def handleHotkeys (desktop : Desktop) (typing : Bool) (pressed : Keyboard) : Desktop :=
  if typing then desktop else keys.foldl (poll pressed) desktop

inductive Event where
  | edit (event : AddressListService.Event)
  /-- Other programs register keys that are free, and give keys back. -/
  | others (taken : Finset Nat)
  /-- `WM_HOTKEY` -/
  | message (id : Nat)
  /-- A frame, with a text box in use or not. -/
  | frame (typing : Bool) (during : List AddressListService.Event) (pressed : Keyboard)

def step (desktop : Desktop) : Event → Desktop
  | .edit event => { desktop with list := AddressListService.step desktop.list event }
  | .others taken => { desktop with taken := taken \ desktop.system }
  | .message id => if firstId ≤ id ∧ id ≤ lastId then desktop.toggle id [] else desktop
  | .frame typing during pressed => (desktop.sync during).handleHotkeys typing pressed

/-- What a key does in a frame where the system sends messages for these ones. -/
def polled (system : Finset Nat) (pressed : Keyboard) (id : Nat) : List AddressListService.Event :=
  if id ∈ system then []
  else
    match pressed id with
    | some meanwhile => toggling id :: meanwhile
    | none => []

/-- What is to happen to the list, where at the end of the event the system sends messages for
these keys: a message toggles its key, and a frame those that are pressed and that the system sends
no message for. -/
def Event.intended (system : Finset Nat) : Event → List AddressListService.Event
  | .edit event => [event]
  | .others _ => []
  | .message id => if firstId ≤ id ∧ id ≤ lastId then [toggling id] else []
  | .frame typing during pressed =>
      during ++ if typing then [] else keys.flatMap (polled system pressed)

/-- What the window believes to be registered is, and it is what was asked for and no other program
had. -/
structure Sound (desktop : Desktop) : Prop where
  believed : desktop.system = desktop.registered
  given : desktop.registered = desktop.cache.shown \ desktop.rivals
  refused : desktop.refused = desktop.cache.shown ∩ desktop.rivals
  inRange : ∀ id ∈ desktop.cache.shown, firstId ≤ id ∧ id ≤ lastId
  apart : Disjoint desktop.taken desktop.system

theorem idFor_inRange {hotkey : Text} {id : Nat} (known : idFor hotkey = some id) :
    firstId ≤ id ∧ id ≤ lastId := by
  unfold idFor at known
  split at known
  · dsimp only at known
    split_ifs at known with _ _ outside
    rw [← Option.some.inj known]
    simpa only [Bool.or_eq_true, decide_eq_true_eq, not_or, Nat.not_lt] using outside
  · contradiction

theorem wantedIds_inRange {entries : List AddressEntry} {id : Nat}
    (wanted : id ∈ wantedIds entries) : firstId ≤ id ∧ id ≤ lastId := by
  rw [wantedIds, List.mem_toFinset, List.mem_filterMap] at wanted
  obtain ⟨entry, -, known⟩ := wanted
  exact idFor_inRange known

/-- Polling changes the list, and nothing else that a later key depends on. -/
theorem poll_eq (pressed : Keyboard) (desktop : Desktop) (id : Nat) :
    poll pressed desktop id =
      { desktop with
        list := run AddressListService.step desktop.list (polled desktop.registered pressed id) } := by
  unfold poll polled owns
  by_cases owned : id ∈ desktop.registered
  · rw [if_pos (decide_eq_true owned), if_pos owned]
    rfl
  · rw [if_neg (by simpa using owned), if_neg owned]
    cases pressed id <;> rfl

theorem foldl_poll (pressed : Keyboard) (ids : List Nat) (desktop : Desktop) :
    ids.foldl (poll pressed) desktop =
      { desktop with
        list := run AddressListService.step desktop.list
          (ids.flatMap (polled desktop.registered pressed)) } := by
  induction ids generalizing desktop with
  | nil => rfl
  | cons id rest ih =>
      rw [List.foldl_cons, poll_eq, ih, List.flatMap_cons, run_append]

theorem handleHotkeys_eq (desktop : Desktop) (typing : Bool) (pressed : Keyboard) :
    desktop.handleHotkeys typing pressed =
      { desktop with
        list := run AddressListService.step desktop.list
          (if typing then [] else keys.flatMap (polled desktop.registered pressed)) } := by
  unfold handleHotkeys
  cases typing with
  | true => rfl
  | false => exact foldl_poll pressed keys desktop

theorem sound_initial : Sound {} where
  believed := rfl
  given := rfl
  refused := rfl
  inRange := fun _ asked => absurd asked (Finset.notMem_empty _)
  apart := Finset.disjoint_empty_right _

theorem look_inRange {desktop : Desktop} (sound : Sound desktop) (later : Editing) :
    ∀ id ∈ (watchedEntries.look (fun _ entries => wantedIds entries) desktop.cache ()
      desktop.list later).shown, firstId ≤ id ∧ id ≤ lastId := by
  intro id shown
  unfold Watched.look at shown
  split at shown
  · exact wantedIds_inRange shown
  · exact sound.inRange id shown

/-- A request is answered: what no other program has is registered, and the rest is refused. -/
theorem sound_apply {desktop : Desktop} (believed : desktop.system = desktop.registered)
    (inRange : ∀ id ∈ desktop.cache.shown, firstId ≤ id ∧ id ≤ lastId) :
    Sound (desktop.apply desktop.cache.shown) := by
  have back : desktop.system \ desktop.registered = ∅ := by rw [believed, Finset.sdiff_self]
  have asked : (desktop.cache.shown.filter fun id => firstId ≤ id ∧ id ≤ lastId) =
      desktop.cache.shown := Finset.filter_true_of_mem inRange
  have accepted : (desktop.cache.shown.filter fun id => id ∉ desktop.taken ∧ id ∉ (∅ : Finset Nat)) =
      desktop.cache.shown \ desktop.taken := by
    ext id
    simp
  unfold apply
  simp only [back, asked, accepted, Finset.empty_union]
  exact
    { believed := rfl
      given := rfl
      refused := Finset.sdiff_sdiff_self_left _ _
      inRange
      apart := Finset.disjoint_sdiff }

theorem sound_sync {desktop : Desktop} (sound : Sound desktop)
    (during : List AddressListService.Event) : Sound (desktop.sync during) := by
  have inRange := look_inRange sound (run AddressListService.step desktop.list during)
  unfold sync
  dsimp only
  split
  · rename_i same
    have given := sound.given
    have refused := sound.refused
    rw [← same] at given refused
    exact { sound with given, refused, inRange }
  · exact sound_apply sound.believed inRange

theorem sound_step {desktop : Desktop} (sound : Sound desktop) (event : Event) :
    Sound (desktop.step event) := by
  cases event with
  | edit event => exact { sound with }
  | others taken => exact { sound with apart := Finset.sdiff_disjoint }
  | message id =>
      rw [step]
      split
      · exact { sound with }
      · exact sound
  | frame typing during pressed =>
      rw [step, handleHotkeys_eq]
      exact { sound_sync sound during with }

theorem sound_run (events : List Event) : Sound (run step {} events) :=
  (follows_true _ _ events).reached.invariant sound_initial fun _ event before _ =>
    sound_step before event

/-- What a frame does to the list is seen with what the window believes to be registered. -/
theorem step_list (desktop : Desktop) (event : Event) :
    (desktop.step event).list =
      run AddressListService.step desktop.list (event.intended (desktop.step event).registered) := by
  cases event with
  | edit event => rfl
  | others taken => rfl
  | message id =>
      rw [step, Event.intended]
      split <;> rfl
  | frame typing during pressed =>
      have synced : (desktop.sync during).list =
          run AddressListService.step desktop.list during := by
        unfold sync
        dsimp only
        split <;> rfl
      rw [step, handleHotkeys_eq, Event.intended, run_append, ← synced]

/-- In every run, whatever keys the frames find pressed and whatever messages come: a key is toggled
by each message for it, and by a frame exactly when it is found pressed and the system sends no
message for it: one that it sends messages for is toggled by these alone. What the window believes
to be registered is what the system has registered for it, out of what was asked for last. -/
theorem toggled_once (events : List Event) (event : Event) :
    let desktop := run step {} events
    let after := desktop.step event
    after.list = run AddressListService.step desktop.list (event.intended after.system) ∧
      after.system = after.registered ∧ after.registered ⊆ after.cache.shown ∧
      Disjoint after.taken after.system := by
  dsimp only
  have sound := sound_step (sound_run events) event
  refine ⟨?_, sound.believed, ?_, sound.apart⟩
  · rw [sound.believed]
    exact step_list _ event
  · rw [sound.given]
    exact Finset.sdiff_subset

/-- How often the list may change. -/
def Event.edits : Event → Nat
  | .edit _ => 1
  | .frame _ during pressed =>
      during.length + (keys.map fun id => ((pressed id).getD []).length).sum
  | _ => 0

/-- The counter of the list and the rows behind it against what was asked for. -/
def Tracks (most : Nat) (desktop : Desktop) : Prop :=
  watchedEntries.Behind (fun _ entries => wantedIds entries) most (desktop.list, desktop.cache)

theorem Tracks.of_list {most : Nat} {before after : Desktop} (tracks : Tracks most before)
    (list : after.list.list = before.list.list) (cache : after.cache = before.cache) :
    Tracks most after := by
  unfold Tracks at tracks ⊢
  obtain ⟨below, stamped, past⟩ := tracks
  have revision : watchedEntries.revision after.list = watchedEntries.revision before.list :=
    congrArg AddressList.revision list
  have value : watchedEntries.value after.list = watchedEntries.value before.list :=
    congrArg AddressList.snapshot list
  exact ⟨by rw [revision]; exact below, by rw [cache]; exact stamped,
    by rw [revision, value, cache]; exact past⟩

/-- Synchronising is a look at the counter and a copy. -/
theorem sync_eq (desktop : Desktop) (during : List AddressListService.Event) :
    ((desktop.sync during).list, (desktop.sync during).cache) =
      watchedEntries.next (fun _ entries => wantedIds entries) (desktop.list, desktop.cache)
        (.frame () during) := by
  unfold sync
  dsimp only
  split <;> rfl

/-- A call of `toggleHotkey` begins without a change of the list. -/
theorem Tracks.toggle {most : Nat} {desktop : Desktop} (tracks : Tracks most desktop) (id : Nat)
    (meanwhile : List AddressListService.Event) :
    Tracks (most + meanwhile.length) (desktop.toggle id meanwhile) := by
  have begun : Tracks most (desktop.toggle id []) := tracks.of_list rfl rfl
  exact begun.others meanwhile

theorem Tracks.poll {most : Nat} {desktop : Desktop} (tracks : Tracks most desktop)
    (pressed : Keyboard) (id : Nat) :
    ∃ later ≤ most + ((pressed id).getD []).length, Tracks later (poll pressed desktop id) := by
  unfold Desktop.poll
  split
  · exact ⟨most, Nat.le_add_right _ _, tracks⟩
  · cases pressed id with
    | none => exact ⟨most, Nat.le_add_right _ _, tracks⟩
    | some meanwhile => exact ⟨_, Nat.le_refl _, tracks.toggle id meanwhile⟩

theorem Tracks.foldl_poll {most : Nat} {desktop : Desktop} (tracks : Tracks most desktop)
    (pressed : Keyboard) (ids : List Nat) :
    ∃ later ≤ most + (ids.map fun id => ((pressed id).getD []).length).sum,
      Tracks later (ids.foldl (Desktop.poll pressed) desktop) := by
  induction ids generalizing desktop most with
  | nil => exact ⟨most, Nat.le_refl _, tracks⟩
  | cons id rest ih =>
      obtain ⟨first, small, polled⟩ := tracks.poll pressed id
      obtain ⟨later, bound, tracked⟩ := ih polled
      refine ⟨later, ?_, tracked⟩
      rw [List.map_cons, List.sum_cons]
      omega

theorem Tracks.step {most : Nat} {desktop : Desktop} (tracks : Tracks most desktop)
    (event : Event) : ∃ later ≤ most + event.edits, Tracks later (desktop.step event) := by
  cases event with
  | edit event => exact ⟨_, Nat.le_refl _, tracks.others [event]⟩
  | others taken => exact ⟨most, Nat.le_refl _, tracks⟩
  | message id =>
      refine ⟨most, Nat.le_refl _, ?_⟩
      rw [Desktop.step]
      split
      · exact tracks.toggle id []
      · exact tracks
  | frame typing during pressed =>
      have synced : Tracks (most + during.length) (desktop.sync during) := by
        unfold Tracks
        rw [sync_eq]
        exact Watched.Behind.next tracks (.frame () during)
      rw [Desktop.step, handleHotkeys, Event.edits]
      cases typing with
      | true => exact ⟨_, by omega, synced⟩
      | false =>
          rw [← Nat.add_assoc]
          exact synced.foldl_poll pressed keys

theorem Tracks.run {most : Nat} {desktop : Desktop} (tracks : Tracks most desktop)
    (events : List Event) (room : most + (events.map Event.edits).sum < addressSpace) :
    ∃ later < addressSpace, Tracks later (run Desktop.step desktop events) := by
  induction events generalizing desktop most with
  | nil => exact ⟨most, by simpa using room, tracks⟩
  | cons event rest ih =>
      rw [List.map_cons, List.sum_cons] at room
      obtain ⟨later, bound, tracked⟩ := tracks.step event
      exact ih tracked (by omega)

/-- After a frame what is asked of the system is what the rows wanted at a moment of the frame,
whatever happened to the list before, and the system has given the window what of it no other
program had when it was asked. -/
theorem requested_in_frame (events : List Event) (typing : Bool)
    (during : List AddressListService.Event) (pressed : Keyboard)
    (short : (events.map Event.edits).sum < addressSpace - 1) :
    let desktop := run step {} events
    let after := desktop.step (.frame typing during pressed)
    (∃ before, before <+: during ∧
      after.cache.shown =
        wantedIds (run AddressListService.step desktop.list before).list.snapshot) ∧
      after.system = after.cache.shown \ after.rivals ∧
      after.refused = after.cache.shown ∩ after.rivals := by
  have first : Tracks 1 {} :=
    ⟨by decide, by decide, 1, Nat.le_refl _, by decide, fun zero => absurd zero (by decide)⟩
  obtain ⟨most, room, tracks⟩ := first.run events (by omega)
  obtain ⟨before, start, shown⟩ := Watched.Behind.look tracks room () during
  have sound := sound_step (sound_run events) (.frame typing during pressed)
  refine ⟨⟨before, start, ?_⟩, sound.believed.trans sound.given, sound.refused⟩
  rw [Desktop.step, handleHotkeys_eq]
  exact (congrArg (fun state => state.2.shown) (sync_eq _ during)).trans shown

theorem requested_in_frame_first :
    let desktop := run step {} [.edit (.add { hotkey := ['F', '5'] }), .others {5}]
    let after := desktop.step (.frame false [.remove 1] fun _ => none)
    (∃ before, before <+: [AddressListService.Event.remove 1] ∧
      after.cache.shown =
        wantedIds (run AddressListService.step desktop.list before).list.snapshot) ∧
      after.system = after.cache.shown \ after.rivals ∧
      after.refused = after.cache.shown ∩ after.rivals :=
  requested_in_frame [.edit (.add { hotkey := ['F', '5'] }), .others {5}] false [.remove 1]
    (fun _ => none) (by decide)

end Desktop

section Names

theorem idFor_some {hotkey : Text} {id : Nat} (known : idFor hotkey = some id) :
    ∃ front digits, hotkey = front :: digits ∧ (front = 'F' ∨ front = 'f') ∧ digits ≠ [] ∧
      (∀ c ∈ digits, c.isDigit = true) ∧ number 10 digits = id := by
  cases hotkey with
  | nil => contradiction
  | cons front digits =>
      rw [idFor] at known
      split at known
      · contradiction
      · rename_i shaped
        split at known
        · contradiction
        · rename_i decimal
          dsimp only at known
          split at known
          · contradiction
          · simp only [Bool.or_eq_true, Bool.and_eq_true, bne_iff_ne, not_or, not_and,
              Decidable.not_not, List.isEmpty_iff] at shaped
            simp only [Bool.not_eq_true', Bool.not_eq_false, List.all_eq_true] at decimal
            refine ⟨front, digits, rfl, ?_, shaped.1, decimal, Option.some.inj known⟩
            by_cases upper : front = 'F'
            · exact .inl upper
            · exact .inr (shaped.2 upper)

/-- What the name of a key is compared as. -/
theorem lower_name {front : Char} (letter : front = 'F' ∨ front = 'f') {digits : Text}
    (decimal : ∀ c ∈ digits, c.isDigit = true) :
    lower (AddressListService.cString (front :: digits)) = 'f' :: digits := by
  have kept : AddressListService.cString (front :: digits) = front :: digits := by
    rw [AddressListService.cString, List.takeWhile_eq_self_iff]
    intro c inside
    rw [bne_iff_ne]
    rintro rfl
    rcases List.mem_cons.mp inside with rfl | later
    · exact absurd letter (by decide)
    · exact absurd (decimal _ later) (by decide)
  have alike : ∀ digit < 10, (Nat.digitChar digit).toLower = Nat.digitChar digit := by decide
  have same : digits.map Char.toLower = digits := by
    refine (List.map_congr_left fun c inside => ?_).trans (List.map_id digits)
    obtain ⟨small, char⟩ := digitChar_digitValue (decimal c inside)
    rw [← char]
    exact alike _ small
  rw [kept, lower, List.map_cons, same]
  rcases letter with rfl | rfl <;> rfl

theorem sameHotkey_keyName_iff (row : AddressEntry) (id : Nat)
    (known : idFor row.hotkey = some id) :
    AddressListService.sameHotkey row.hotkey (keyName id) = true ↔
      row.hotkey.tail.head? ≠ some '0' := by
  obtain ⟨front, digits, named, letter, some_, decimal, number⟩ := idFor_some known
  have positive : id ≠ 0 := by
    rintro rfl
    rw [named, idFor] at known
    simp [number, firstId] at known
  rw [AddressListService.sameHotkey, keyName, named, lower_name letter decimal,
    lower_name (.inl rfl) (toDigits_decimal id), beq_iff_eq, List.tail_cons]
  constructor
  · intro same zero
    rw [(List.cons.inj same).2] at zero
    exact positive (toDigits_first zero)
  · intro leads
    rw [← number, toDigits_number decimal some_ leads]

/-- A key that a row has registered toggles the row, and changes nothing else in it, unless the
row's name for it has a zero in front: then the key is taken from every other program, and the row
is passed by. -/
theorem toggleHotkey_row_iff (row : AddressEntry) (id : Nat) (answer : AddressListService.Answer)
    (known : idFor row.hotkey = some id) :
    let visited := AddressListService.Task.visit answer row (.toggleHotkey (keyName id))
    (visited.map (fun setting => setting.apply row) = some { row with frozen := !row.frozen } ↔
        row.hotkey.tail.head? ≠ some '0') ∧
      (visited = none ↔ row.hotkey.tail.head? = some '0') := by
  dsimp only
  rw [AddressListService.Task.visit]
  by_cases leads : row.hotkey.tail.head? = some '0'
  · have differs : ¬AddressListService.sameHotkey row.hotkey (keyName id) = true := fun same =>
      (sameHotkey_keyName_iff row id known).mp same leads
    rw [if_neg differs]
    exact ⟨⟨fun toggled => absurd toggled.symm (Option.some_ne_none _),
      fun other => absurd leads other⟩, ⟨fun _ => leads, fun _ => rfl⟩⟩
  · rw [if_pos ((sameHotkey_keyName_iff row id known).mpr leads)]
    exact ⟨⟨fun _ => leads, fun _ => rfl⟩,
      ⟨fun passed => absurd passed (Option.some_ne_none _), fun zero => absurd zero leads⟩⟩

theorem toggleHotkey_row_five :
    let row : AddressEntry := { hotkey := ['f', '5'] }
    let visited := AddressListService.Task.visit {} row (.toggleHotkey (keyName 5))
    (visited.map (fun setting => setting.apply row) = some { row with frozen := !row.frozen } ↔
        row.hotkey.tail.head? ≠ some '0') ∧
      (visited = none ↔ row.hotkey.tail.head? = some '0') :=
  toggleHotkey_row_iff { hotkey := ['f', '5'] } 5 {} (by decide)

end Names

end PointerLab.UiHotkeys
