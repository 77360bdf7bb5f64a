import PointerLab.AddressList
import Mathlib.Data.List.Forall2

set_option autoImplicit false

/- `services/RuntimeServices.cpp`: the calls that copy the address list, and write rows back
one by one while others do the same. -/
namespace PointerLab.AddressListService

open Domain ProjectStore Runs

/-- The fields of a row that a call sets, and to what. -/
structure Setting where
  address : Option Nat := none
  type : Option ValueType := none
  description : Option Text := none
  group : Option Text := none
  hotkey : Option Text := none
  frozenValue : Option (List UInt8) := none
  /-- The value to freeze at where there is none yet. -/
  captured : Option (List UInt8) := none
  frozen : Option Bool := none
  flips : Bool := false
  chain : Option (Option PointerChain) := none
  resolved : Option Bool := none
  deriving DecidableEq, Repr

def Setting.value (setting : Setting) (value : List UInt8) : List UInt8 :=
  match setting.captured with
  | some bytes => if value.isEmpty then bytes else value
  | none => setting.frozenValue.getD value

def Setting.freeze (setting : Setting) (frozen : Bool) : Bool :=
  if setting.flips then !frozen else setting.frozen.getD frozen

/-- The row with the fields set. -/
def Setting.apply (setting : Setting) (entry : AddressEntry) : AddressEntry :=
  { id := entry.id
    address := setting.address.getD entry.address
    type := setting.type.getD entry.type
    frozenValue := setting.value entry.frozenValue
    description := setting.description.getD entry.description
    group := setting.group.getD entry.group
    hotkey := setting.hotkey.getD entry.hotkey
    frozen := setting.freeze entry.frozen
    chain := setting.chain.getD entry.chain
    resolved := setting.resolved.getD entry.resolved }

/-- What the editor panel holds when a fixed address is applied. -/
structure Form where
  address : Nat
  type : ValueType
  description : Text
  group : Text
  hotkey : Text
  value : Option (List UInt8)
  deriving DecidableEq, Repr

/-- A call that goes over a copy of the rows: the two passes of the background thread, and
what the user does. -/
inductive Task where
  | resolvePointerChains
  | freezePass
  | setFrozen (id : Nat) (frozen : Bool)
  | updateValue (id : Nat) (bytes : List UInt8)
  | toggleHotkey (hotkey : Text)
  | applyEdit (id : Nat) (form : Form)
  | applyValueAndHotkey (id : Nat) (frozen : Option Bool) (hotkey : Text)
      (value : Option (List UInt8))
  deriving DecidableEq, Repr

/-- What the target answers while a row is visited: where its chain leads, the bytes read
there, and whether the frozen value could be written. -/
structure Answer where
  target : Option Nat := none
  read : Option (List UInt8) := none
  written : Bool := true
  deriving DecidableEq, Repr

/-- The characters of `c_str()`. -/
def cString (text : Text) : Text := text.takeWhile (· != '\x00')

/-- `_stricmp(...) == 0`. -/
def sameHotkey (first second : Text) : Bool := lower (cString first) == lower (cString second)

/-- What the call sets in a row of its copy, or that it passes it by. -/
def Task.visit (answer : Answer) (entry : AddressEntry) : Task → Option Setting
  | .resolvePointerChains =>
      if entry.chain.isNone then none
      else
        let ok := answer.target.isSome
        let address := answer.target.getD entry.address
        if ok == entry.resolved && address == entry.address then none
        else some { address := answer.target, resolved := some ok }
  | .freezePass =>
      if !entry.frozen || entry.frozenValue.isEmpty || !entry.resolved then none
      else if answer.written then none
      else some { frozen := some false }
  | .setFrozen id frozen =>
      if entry.id = id then
        let captured := if frozen && entry.frozenValue.isEmpty then answer.read else none
        some { frozen := some frozen, captured }
      else none
  | .updateValue id bytes => if entry.id = id then some { frozenValue := some bytes } else none
  | .toggleHotkey hotkey =>
      if sameHotkey entry.hotkey hotkey then some { flips := true } else none
  | .applyEdit id form =>
      if entry.id = id then
        some
          { address := some form.address, type := some form.type
            description := some form.description, group := some form.group
            hotkey := some form.hotkey, frozenValue := form.value
            chain := some none, resolved := some true }
      else none
  | .applyValueAndHotkey id frozen hotkey value =>
      if entry.id = id then some { frozen, hotkey := some hotkey, frozenValue := value } else none

/-- The calls of the background thread. -/
def Task.background : Task → Bool
  | .resolvePointerChains | .freezePass => true
  | _ => false

/-- Whether the call returns after the first row it sets. -/
def Task.stops : Task → Bool
  | .resolvePointerChains | .freezePass | .toggleHotkey _ => false
  | _ => true

/-- A call under way: the rows of its copy still to be visited. -/
structure Call where
  task : Task
  pending : List AddressEntry
  deriving DecidableEq, Repr

/-- The list and the calls under way. `intended` is beside the program: the rows as they are
when every call sets its fields in the row as it is then. -/
structure Editing where
  list : AddressList := {}
  calls : List Call := []
  intended : List AddressEntry := []

inductive Event where
  | add (entry : AddressEntry)
  | remove (id : Nat)
  | replace (entries : List AddressEntry)
  | call (task : Task)
  | advance (index : Nat) (answer : Answer)
  deriving DecidableEq, Repr

/-- The call with one row less to visit, or gone. -/
def Call.next (call : Call) (set : Bool) : Call :=
  { call with pending := if set && call.task.stops then [] else call.pending.tail }

/-- The row of a call's copy is visited. -/
def Editing.visit (s : Editing) (index : Nat) (answer : Answer) (call : Call)
    (copy : AddressEntry) : Editing :=
  match call.task.visit answer copy with
  | none => { s with calls := s.calls.set index (call.next false) }
  | some setting =>
      { list := (s.list.update (setting.apply copy)).2
        calls := s.calls.set index (call.next true)
        intended := (AddressList.changeFirst copy.id setting.apply s.intended).getD s.intended }

def step (s : Editing) : Event → Editing
  | .add entry =>
      let (id, list) := s.list.add entry
      { s with list, intended := s.intended ++ [{ entry with id }] }
  | .remove id =>
      { s with list := (s.list.remove id).2, intended := s.intended.filter (·.id != id) }
  | .replace entries => { s with list := s.list.replace entries, intended := entries }
  | .call task => { s with calls := s.calls ++ [{ task, pending := s.list.snapshot }] }
  | .advance index answer =>
      match s.calls[index]? with
      | some call =>
          match call.pending with
          | copy :: _ => s.visit index answer call copy
          | [] => s
      | none => s

/-- A row has every field as intended. Where a chain leads is for the background thread to
say. -/
structure Matches (entry intended : AddressEntry) : Prop where
  id : entry.id = intended.id
  type : entry.type = intended.type
  frozenValue : entry.frozenValue = intended.frozenValue
  description : entry.description = intended.description
  group : entry.group = intended.group
  hotkey : entry.hotkey = intended.hotkey
  frozen : entry.frozen = intended.frozen
  chain : entry.chain = intended.chain
  address : entry.chain = none → entry.address = intended.address
  resolved : entry.chain = none → entry.resolved = intended.resolved

/-- No edit is lost. -/
def Kept (s : Editing) : Prop := List.Forall₂ Matches s.list.entries s.intended

/-- What the background thread may change in a row. -/
structure OnlyPlace (before after : AddressEntry) : Prop where
  id : after.id = before.id
  type : after.type = before.type
  frozenValue : after.frozenValue = before.frozenValue
  description : after.description = before.description
  group : after.group = before.group
  hotkey : after.hotkey = before.hotkey
  frozen : after.frozen = before.frozen ∨ after.frozen = false
  chain : after.chain = before.chain

/-- A step of a call of the background thread changes nothing else. -/
def BackgroundKeeps (s : Editing) : Event → Prop
  | .advance index answer => ∀ call, s.calls[index]? = some call → call.task.background = true →
      List.Forall₂ OnlyPlace s.list.entries (step s (.advance index answer)).list.entries
  | _ => True

/-- The copy agrees with the row as it is now in what the call leaves alone. -/
structure Fresh (setting : Setting) (copy current : AddressEntry) : Prop where
  type : setting.type = none → copy.type = current.type
  frozenValue : setting.value copy.frozenValue = setting.value current.frozenValue
  description : setting.description = none → copy.description = current.description
  group : setting.group = none → copy.group = current.group
  hotkey : setting.hotkey = none → copy.hotkey = current.hotkey
  frozen : setting.freeze copy.frozen = setting.freeze current.frozen
  chain : setting.chain = none → copy.chain = current.chain
  address : setting.address = none → setting.chain.getD copy.chain = none →
    copy.address = current.address
  resolved : setting.resolved = none → setting.chain.getD copy.chain = none →
    copy.resolved = current.resolved

/-- A row that is written back comes from a fresh copy. -/
def Timely (s : Editing) : Event → Prop
  | .advance index answer => ∀ call copy rest setting current, s.calls[index]? = some call →
      call.pending = copy :: rest → call.task.visit answer copy = some setting →
      s.list.entries.find? (·.id == copy.id) = some current → Fresh setting copy current
  | _ => True

theorem Matches.refl (entry : AddressEntry) : Matches entry entry :=
  ⟨rfl, rfl, rfl, rfl, rfl, rfl, rfl, rfl, fun _ => rfl, fun _ => rfl⟩

/-- A call that sets the chain also says where the row is. -/
def Setting.Whole (setting : Setting) : Prop :=
  setting.chain = none ∨ (setting.address ≠ none ∧ setting.resolved ≠ none)

theorem visit_whole {task : Task} {answer : Answer} {copy : AddressEntry} {setting : Setting}
    (sets : task.visit answer copy = some setting) : setting.Whole := by
  cases task with
  | applyEdit id form =>
      rw [Task.visit] at sets
      split at sets
      · rw [← Option.some.inj sets]
        exact .inr ⟨nofun, nofun⟩
      · exact nomatch sets
  | resolvePointerChains =>
      rw [Task.visit] at sets
      simp only [] at sets
      split_ifs at sets
      rw [← Option.some.inj sets]
      exact .inl rfl
  | freezePass =>
      rw [Task.visit] at sets
      split_ifs at sets
      rw [← Option.some.inj sets]
      exact .inl rfl
  | setFrozen | updateValue | toggleHotkey | applyValueAndHotkey =>
      rw [Task.visit] at sets
      split at sets
      · rw [← Option.some.inj sets]
        exact .inl rfl
      · exact nomatch sets

/-- A field the call sets is the same in any row, another is the row's own. -/
theorem getD_eq_getD {Value : Type} {set : Option Value} {first second : Value} :
    set.getD first = set.getD second ↔ (set = none → first = second) := by
  cases set <;> simp

/-- A row that is written back without a chain, its place not set, had none before. -/
theorem Setting.Whole.unchained {setting : Setting} (whole : setting.Whole)
    {copy current : AddressEntry} (chain : setting.chain = none → copy.chain = current.chain)
    (unset : setting.address = none ∨ setting.resolved = none)
    (none_ : setting.chain.getD copy.chain = none) : current.chain = none := by
  have kept : setting.chain = none := whole.resolve_right fun both =>
    unset.elim both.1 both.2
  rw [← chain kept]
  simpa [kept] using none_

/-- Setting the fields in a copy is setting them in the row exactly when the copy is fresh. -/
theorem apply_matches {setting : Setting} (whole : setting.Whole)
    {copy current intended : AddressEntry} (same : copy.id = current.id)
    (kept : Matches current intended) :
    Matches (setting.apply copy) (setting.apply intended) ↔ Fresh setting copy current := by
  constructor
  · intro after
    have chain : setting.chain = none → copy.chain = current.chain := by
      rw [kept.chain]
      exact getD_eq_getD.mp after.chain
    constructor
    · rw [kept.type]
      exact getD_eq_getD.mp after.type
    · rw [kept.frozenValue]
      exact after.frozenValue
    · rw [kept.description]
      exact getD_eq_getD.mp after.description
    · rw [kept.group]
      exact getD_eq_getD.mp after.group
    · rw [kept.hotkey]
      exact getD_eq_getD.mp after.hotkey
    · rw [kept.frozen]
      exact after.frozen
    · exact chain
    · intro unset none_
      rw [kept.address (whole.unchained chain (.inl unset) none_)]
      exact getD_eq_getD.mp (after.address none_) unset
    · intro unset none_
      rw [kept.resolved (whole.unchained chain (.inr unset) none_)]
      exact getD_eq_getD.mp (after.resolved none_) unset
  · intro fresh
    constructor
    · exact same.trans kept.id
    · exact getD_eq_getD.mpr fun unset => (fresh.type unset).trans kept.type
    · exact fresh.frozenValue.trans (congrArg _ kept.frozenValue)
    · exact getD_eq_getD.mpr fun unset => (fresh.description unset).trans kept.description
    · exact getD_eq_getD.mpr fun unset => (fresh.group unset).trans kept.group
    · exact getD_eq_getD.mpr fun unset => (fresh.hotkey unset).trans kept.hotkey
    · exact fresh.frozen.trans (congrArg _ kept.frozen)
    · exact getD_eq_getD.mpr fun unset => (fresh.chain unset).trans kept.chain
    · intro none_
      exact getD_eq_getD.mpr fun unset =>
        (fresh.address unset none_).trans (kept.address (whole.unchained fresh.chain (.inl unset) none_))
    · intro none_
      exact getD_eq_getD.mpr fun unset =>
        (fresh.resolved unset none_).trans
          (kept.resolved (whole.unchained fresh.chain (.inr unset) none_))

/-- Changing the first row with an id on both sides keeps the rows matched exactly when it
keeps that row matched. -/
theorem changeFirst_matches {entries intended : List AddressEntry}
    (kept : List.Forall₂ Matches entries intended) (id : Nat)
    (change meant : AddressEntry → AddressEntry) (exact_ : AddressEntry → Prop)
    (one : ∀ current other, current.id = id → Matches current other →
      (Matches (change current) (meant other) ↔ exact_ current)) :
    List.Forall₂ Matches ((AddressList.changeFirst id change entries).getD entries)
        ((AddressList.changeFirst id meant intended).getD intended) ↔
      ∀ current, entries.find? (·.id == id) = some current → exact_ current := by
  induction kept with
  | nil => simp [AddressList.changeFirst]
  | @cons first other rest later head tail ih =>
      rw [AddressList.changeFirst, AddressList.changeFirst, ← head.id, List.find?_cons]
      by_cases here : first.id = id
      · have found : (first.id == id) = true := beq_iff_eq.mpr here
        rw [if_pos here, if_pos here, found, Option.getD_some, Option.getD_some,
          List.forall₂_cons]
        simp only [Option.some.injEq, forall_eq', tail, and_true]
        exact one first other here head
      · have elsewhere : (first.id == id) = false := beq_false_of_ne here
        rw [if_neg here, if_neg here, elsewhere]
        have joined (changed : Option (List AddressEntry)) (entry : AddressEntry)
            (old : List AddressEntry) :
            (changed.map (entry :: ·)).getD (entry :: old) = entry :: changed.getD old := by
          cases changed <;> rfl
        rw [joined, joined, List.forall₂_cons]
        simp only [head, true_and]
        exact ih

theorem update_entries (list : AddressList) (entry : AddressEntry) :
    (list.update entry).2.entries =
      (AddressList.changeFirst entry.id (fun _ => entry) list.entries).getD list.entries := by
  rw [AddressList.update, AddressList.changed]
  cases AddressList.changeFirst entry.id (fun _ => entry) list.entries with
  | none => rfl
  | some entries => rfl

/-- A visit keeps all edits exactly when what it writes back comes from a fresh copy. -/
theorem visit_kept {s : Editing} (kept : Kept s) (index : Nat) (answer : Answer) (call : Call)
    (copy : AddressEntry) :
    Kept (s.visit index answer call copy) ↔
      ∀ setting current, call.task.visit answer copy = some setting →
        s.list.entries.find? (·.id == copy.id) = some current → Fresh setting copy current := by
  unfold Editing.visit
  cases sets : call.task.visit answer copy with
  | none => exact iff_of_true kept fun _ _ visits => nomatch visits
  | some setting =>
      have whole := visit_whole sets
      show List.Forall₂ Matches (s.list.update (setting.apply copy)).2.entries _ ↔ _
      rw [update_entries]
      apply (changeFirst_matches kept copy.id (fun _ => setting.apply copy) setting.apply
        (Fresh setting copy) ?_).trans
      · constructor
        · intro fresh other current same
          exact Option.some.inj same ▸ fresh current
        · exact fun fresh current => fresh setting current rfl
      · intro current other same row
        exact apply_matches whole same.symm row

theorem filter_matches {entries intended : List AddressEntry}
    (kept : List.Forall₂ Matches entries intended) (id : Nat) :
    List.Forall₂ Matches (entries.filter (·.id != id)) (intended.filter (·.id != id)) := by
  induction kept with
  | nil => exact .nil
  | cons head tail ih =>
      rw [List.filter_cons, List.filter_cons, head.id]
      split
      · exact .cons head ih
      · exact ih

theorem step_kept {s : Editing} (kept : Kept s) (event : Event) :
    Kept (step s event) ↔ Timely s event := by
  cases event with
  | add entry =>
      apply iff_true_intro
      exact List.rel_append kept (.cons (Matches.refl _) .nil)
  | remove id =>
      apply iff_true_intro
      show List.Forall₂ Matches (s.list.remove id).2.entries _
      rw [(s.list.remove_entries id).1]
      exact filter_matches kept id
  | replace entries => exact iff_true_intro (List.forall₂_same.mpr fun entry _ => Matches.refl entry)
  | call task => exact iff_true_intro kept
  | advance index answer =>
      rw [step, Timely]
      cases there : s.calls[index]? with
      | none => exact iff_of_true kept fun _ _ _ _ _ same => nomatch same
      | some call =>
          cases pending : call.pending with
          | nil =>
              simp only [pending]
              apply iff_of_true kept
              intro other copy rest setting current same visits
              rw [← Option.some.inj same, pending] at visits
              exact nomatch visits
          | cons copy rest =>
              simp only [pending]
              apply (visit_kept kept index answer call copy).trans
              constructor
              · intro fresh other first later setting current same visits
                rw [← Option.some.inj same, pending] at visits
                rw [← Option.some.inj same, ← (List.cons.inj visits).1]
                exact fresh setting current
              · intro fresh setting current
                exact fresh call copy rest setting current rfl pending

theorem kept_start (list : AddressList) : Kept { list, intended := list.entries } :=
  List.forall₂_same.mpr fun entry _ => Matches.refl entry

theorem OnlyPlace.refl (entry : AddressEntry) : OnlyPlace entry entry :=
  ⟨rfl, rfl, rfl, rfl, rfl, rfl, .inl rfl, rfl⟩

/-- What the background thread sets. -/
theorem visit_background {task : Task} (background : task.background = true) {answer : Answer}
    {copy : AddressEntry} {setting : Setting} (sets : task.visit answer copy = some setting) :
    (∃ address resolved, setting = { address, resolved := some resolved }) ∨
      setting = { frozen := some false } := by
  cases task with
  | resolvePointerChains =>
      rw [Task.visit] at sets
      simp only [] at sets
      split_ifs at sets
      exact .inl ⟨_, _, (Option.some.inj sets).symm⟩
  | freezePass =>
      rw [Task.visit] at sets
      split_ifs at sets
      exact .inr (Option.some.inj sets).symm
  | setFrozen | updateValue | toggleHotkey | applyEdit | applyValueAndHotkey =>
      exact nomatch background

theorem fresh_onlyPlace {setting : Setting} {copy current : AddressEntry}
    (same : copy.id = current.id) (fresh : Fresh setting copy current)
    (background : (∃ address resolved, setting = { address, resolved := some resolved }) ∨
      setting = { frozen := some false }) : OnlyPlace current (setting.apply copy) := by
  rcases background with ⟨address, resolved, rfl⟩ | rfl
  · exact ⟨same, fresh.type rfl, fresh.frozenValue, fresh.description rfl, fresh.group rfl,
      fresh.hotkey rfl, .inl fresh.frozen, fresh.chain rfl⟩
  · exact ⟨same, fresh.type rfl, fresh.frozenValue, fresh.description rfl, fresh.group rfl,
      fresh.hotkey rfl, .inr rfl, fresh.chain rfl⟩

theorem changeFirst_related {related : AddressEntry → AddressEntry → Prop}
    (refl : ∀ entry, related entry entry) (id : Nat) (change : AddressEntry → AddressEntry)
    {entries : List AddressEntry}
    (one : ∀ current, entries.find? (·.id == id) = some current → related current (change current)) :
    List.Forall₂ related entries ((AddressList.changeFirst id change entries).getD entries) := by
  induction entries with
  | nil => exact .nil
  | cons first rest ih =>
      rw [AddressList.changeFirst]
      by_cases here : first.id = id
      · rw [if_pos here]
        refine .cons (one first ?_) (List.forall₂_same.mpr fun entry _ => refl entry)
        rw [List.find?_cons, beq_iff_eq.mpr here]
      · have later := ih fun current found => one current (by
          rw [List.find?_cons, beq_false_of_ne here]
          exact found)
        rw [if_neg here]
        cases changed : AddressList.changeFirst id change rest with
        | none =>
            rw [changed] at later
            exact .cons (refl first) later
        | some fresh =>
            rw [changed] at later
            exact .cons (refl first) later

/-- In a timely step of the background thread a row only moves, or thaws. -/
theorem background_keeps {s : Editing} {event : Event} (timely : Timely s event) :
    BackgroundKeeps s event := by
  cases event with
  | advance index answer =>
      intro call there background
      have same : List.Forall₂ OnlyPlace s.list.entries s.list.entries :=
        List.forall₂_same.mpr fun entry _ => OnlyPlace.refl entry
      simp only [step, there]
      cases pending : call.pending with
      | nil => exact same
      | cons copy rest =>
          simp only [Editing.visit]
          cases sets : call.task.visit answer copy with
          | none => exact same
          | some setting =>
              simp only [update_entries]
              apply changeFirst_related OnlyPlace.refl
              intro current found
              have here := List.find?_some found
              have id : copy.id = current.id := (beq_iff_eq.mp here).symm
              have fresh := timely call copy rest setting current there pending sets found
              exact fresh_onlyPlace id fresh (visit_background background sets)
  | add | remove | replace | call => trivial

/-- From any list, no edit is lost along a run, and the background thread only moves rows or
thaws them, exactly when every row that is written back comes from a fresh copy. -/
theorem run_kept (list : AddressList) (events : List Event) :
    ((∀ done, done <+: events → Kept (run step { list, intended := list.entries } done)) ∧
        ∀ done event, done ++ [event] <+: events →
          BackgroundKeeps (run step { list, intended := list.entries } done) event) ↔
      Follows step Timely { list, intended := list.entries } events := by
  have kept := forall_prefix_iff Kept (fun _ event kept => step_kept kept event)
    (kept_start list) events
  constructor
  · exact fun both => kept.mp both.1
  · intro follows
    refine ⟨kept.mpr follows, ?_⟩
    intro done event part
    exact background_keeps ((follows_iff_forall _ _).mp follows done event part)

/-- A row whose pointer chain is resolved while the user sets its value. -/
def chained : AddressList :=
  { nextId := 2
    entries := [{ id := 1, address := 0x1000, chain := some { moduleOffset := 0x3040 } }] }

def overtaken : List Event :=
  [.call .resolvePointerChains, .call (.updateValue 1 [5]), .advance 1 {},
    .advance 0 { target := some 0x2000 }]

theorem overtaken_lost :
    ¬ ∀ (list : AddressList) (events : List Event),
      Kept (run step { list, intended := list.entries } events) := by
  intro every
  have lost := every chained overtaken
  have rows : (run step { list := chained, intended := chained.entries } overtaken).list.entries =
      [{ id := 1, address := 0x2000, chain := some { moduleOffset := 0x3040 } }] := by decide
  have meant : (run step { list := chained, intended := chained.entries } overtaken).intended =
      [{ id := 1, address := 0x2000, frozenValue := [5],
         chain := some { moduleOffset := 0x3040 } }] := by decide
  rw [Kept, rows, meant, List.forall₂_cons] at lost
  exact absurd lost.1.frozenValue (by decide)

end PointerLab.AddressListService
