import PointerLab.ProjectStoreLines
import PointerLab.Runs
import Mathlib.Data.List.Nodup

set_option autoImplicit false

/- `domain/AddressList.cpp`: the rows the user follows, and the ids they are known by. -/
namespace PointerLab

open Domain ProjectStore Runs

structure AddressList where
  nextId : Nat := 1
  revision : Nat := 1
  entries : List AddressEntry := []
  deriving DecidableEq, Repr

namespace AddressList

def add (list : AddressList) (entry : AddressEntry) : Nat × AddressList :=
  (list.nextId,
    { nextId := bump list.nextId
      revision := bump list.revision
      entries := list.entries ++ [{ entry with id := list.nextId }] })

def remove (list : AddressList) (id : Nat) : Bool × AddressList :=
  let kept := list.entries.filter (·.id != id)
  if kept.length = list.entries.length then (false, { list with entries := kept })
  else (true, { list with entries := kept, revision := bump list.revision })

/-- The loop over the rows: the first one with the id is changed. -/
def changeFirst (id : Nat) (change : AddressEntry → AddressEntry) :
    List AddressEntry → Option (List AddressEntry)
  | [] => none
  | existing :: rest =>
      if existing.id = id then some (change existing :: rest)
      else (changeFirst id change rest).map (existing :: ·)

def changed (list : AddressList) (id : Nat) (change : AddressEntry → AddressEntry) :
    Bool × AddressList :=
  match changeFirst id change list.entries with
  | some entries => (true, { list with entries, revision := bump list.revision })
  | none => (false, list)

def update (list : AddressList) (entry : AddressEntry) : Bool × AddressList :=
  list.changed entry.id fun _ => entry

def setFrozen (list : AddressList) (id : Nat) (frozen : Bool) : Bool × AddressList :=
  list.changed id fun entry => { entry with frozen }

def snapshot (list : AddressList) : List AddressEntry := list.entries

/-- The counter goes on past the highest of the new ids. -/
def nextAfter (entries : List AddressEntry) : Nat :=
  entries.foldl (fun next entry => max next (bump entry.id)) 1

def replace (list : AddressList) (entries : List AddressEntry) : AddressList :=
  { nextId := nextAfter entries, revision := bump list.revision, entries }

def ids (list : AddressList) : List Nat := list.entries.map (·.id)

theorem changeFirst_ids {id : Nat} {change : AddressEntry → AddressEntry}
    (keeps : ∀ entry : AddressEntry, entry.id = id → (change entry).id = id)
    {entries fresh : List AddressEntry} (found : changeFirst id change entries = some fresh) :
    fresh.map (·.id) = entries.map (·.id) := by
  induction entries generalizing fresh with
  | nil => simp [changeFirst] at found
  | cons existing rest ih =>
      rw [changeFirst] at found
      split at found
      · rename_i same
        rw [← Option.some.inj found, List.map_cons, List.map_cons, keeps existing same, same]
      · obtain ⟨later, inRest, joined⟩ := Option.map_eq_some_iff.mp found
        rw [← joined, List.map_cons, List.map_cons, ih inRest]

theorem changed_ids {id : Nat} {change : AddressEntry → AddressEntry}
    (keeps : ∀ entry : AddressEntry, entry.id = id → (change entry).id = id) (list : AddressList) :
    (list.changed id change).2.ids = list.ids ∧ (list.changed id change).2.nextId = list.nextId := by
  rw [changed]
  cases found : changeFirst id change list.entries with
  | none => exact ⟨rfl, rfl⟩
  | some fresh => exact ⟨changeFirst_ids keeps found, rfl⟩

theorem update_ids (list : AddressList) (entry : AddressEntry) :
    (list.update entry).2.ids = list.ids ∧ (list.update entry).2.nextId = list.nextId :=
  changed_ids (fun _ _ => rfl) list

theorem setFrozen_ids (list : AddressList) (id : Nat) (frozen : Bool) :
    (list.setFrozen id frozen).2.ids = list.ids ∧
      (list.setFrozen id frozen).2.nextId = list.nextId :=
  @changed_ids id (fun entry => { entry with frozen }) (fun _ same => same) list

theorem remove_entries (list : AddressList) (id : Nat) :
    (list.remove id).2.entries = list.entries.filter (·.id != id) ∧
      (list.remove id).2.nextId = list.nextId := by
  rw [remove]
  split_ifs <;> exact ⟨rfl, rfl⟩

theorem remove_ids (list : AddressList) (id : Nat) :
    (list.remove id).2.ids.Sublist list.ids ∧ (list.remove id).2.nextId = list.nextId := by
  obtain ⟨kept, next⟩ := remove_entries list id
  refine ⟨?_, next⟩
  rw [ids, kept]
  exact List.filter_sublist.map _

/-- What the counter is set to by `replace`. -/
theorem nextAfter_spec (entries : List AddressEntry) (start : Nat) :
    let next := entries.foldl (fun next entry => max next (bump entry.id)) start
    start ≤ next ∧ (∀ entry ∈ entries, bump entry.id ≤ next) ∧
      (next = start ∨ ∃ entry ∈ entries, next = bump entry.id) := by
  induction entries generalizing start with
  | nil => exact ⟨Nat.le_refl _, fun _ none_ => absurd none_ List.not_mem_nil, .inl rfl⟩
  | cons entry rest ih =>
      obtain ⟨above, most, attained⟩ := ih (max start (bump entry.id))
      refine ⟨?_, ?_, ?_⟩
      · exact Nat.le_trans (Nat.le_max_left _ _) above
      · intro other inList
        cases List.mem_cons.mp inList with
        | inl same =>
            rw [same]
            exact Nat.le_trans (Nat.le_max_right _ _) above
        | inr later => exact most other later
      · cases attained with
        | inr found =>
            obtain ⟨other, later, same⟩ := found
            exact .inr ⟨other, List.mem_cons_of_mem _ later, same⟩
        | inl same =>
            show _ = start ∨ _
            rcases Nat.le_total (bump entry.id) start with less | more
            · exact .inl (by rw [List.foldl_cons, same, Nat.max_eq_left less])
            · refine .inr ⟨entry, List.mem_cons_self, ?_⟩
              rw [List.foldl_cons, same, Nat.max_eq_right more]

/-- The new counter is one of the new ids exactly when it cannot go past them. -/
theorem nextAfter_mem {entries : List AddressEntry}
    (fit : ∀ entry ∈ entries, entry.id < addressSpace) :
    nextAfter entries ∈ entries.map (·.id) ↔
      addressSpace - 1 ∈ entries.map (·.id) ∧ addressSpace - 2 ∈ entries.map (·.id) := by
  obtain ⟨positive, most, attained⟩ := nextAfter_spec entries 1
  change 1 ≤ nextAfter entries at positive
  change ∀ entry ∈ entries, bump entry.id ≤ nextAfter entries at most
  change nextAfter entries = 1 ∨ ∃ entry ∈ entries, nextAfter entries = bump entry.id at attained
  constructor
  · intro taken
    obtain ⟨last, inList, same⟩ := List.mem_map.mp taken
    have wrapped : nextAfter entries = addressSpace - 1 := by
      have less := most last inList
      have fits := fit last inList
      unfold bump addressSpace at *
      omega
    refine ⟨wrapped ▸ taken, ?_⟩
    rcases attained with one | ⟨entry, inEntries, next⟩
    · rw [one] at wrapped
      exact absurd wrapped (by decide)
    · have before : entry.id = addressSpace - 2 := by
        have fits := fit entry inEntries
        unfold bump addressSpace at *
        omega
      exact before ▸ List.mem_map_of_mem inEntries
  · rintro ⟨last, before⟩
    obtain ⟨entry, inList, same⟩ := List.mem_map.mp before
    have atLeast : addressSpace - 1 ≤ nextAfter entries := by
      have less := most entry inList
      unfold bump addressSpace at *
      omega
    have atMost : nextAfter entries < addressSpace := by
      rcases attained with one | ⟨other, _, next⟩
      · exact one ▸ by decide
      · exact next ▸ bump_lt _
    have whole : nextAfter entries = addressSpace - 1 := by omega
    exact whole ▸ last

/-- One row of the list has the id, and it alone is exchanged for other rows. -/
def OneChanged (list fresh : AddressList) (id : Nat)
    (change : AddressEntry → List AddressEntry) : Prop :=
  ∃ before old after, list.entries = before ++ old :: after ∧ old.id = id ∧
    (∀ other ∈ before ++ after, other.id ≠ id) ∧ fresh.entries = before ++ change old ++ after

/-- Every row has an id of its own, also the one that comes next. -/
structure Identified (list : AddressList) : Prop where
  distinct : list.ids.Nodup
  fresh : ∀ entry, (list.add entry).1 ∉ list.ids
  updated : ∀ entry : AddressEntry, entry.id ∈ list.ids →
    list.OneChanged (list.update entry).2 entry.id fun _ => [entry]
  frozen : ∀ id ∈ list.ids, ∀ frozen,
    list.OneChanged (list.setFrozen id frozen).2 id fun old => [{ old with frozen }]
  removed : ∀ id ∈ list.ids, list.OneChanged (list.remove id).2 id fun _ => []

/-- A row whose id no other row has. -/
theorem split_at_id {entries : List AddressEntry} (distinct : (entries.map (·.id)).Nodup)
    {id : Nat} (present : id ∈ entries.map (·.id)) :
    ∃ before old after, entries = before ++ old :: after ∧ old.id = id ∧
      ∀ other ∈ before ++ after, other.id ≠ id := by
  obtain ⟨old, inList, same⟩ := List.mem_map.mp present
  obtain ⟨before, after, split⟩ := List.append_of_mem inList
  refine ⟨before, old, after, split, same, ?_⟩
  rw [split, List.map_append, List.map_cons] at distinct
  have apart := (List.nodup_middle.mp distinct)
  rw [← List.map_append, List.nodup_cons] at apart
  intro other inOthers clash
  exact apart.1 (same.trans clash.symm ▸ List.mem_map_of_mem inOthers)

theorem changeFirst_split {id : Nat} {change : AddressEntry → AddressEntry}
    {before after : List AddressEntry} {old : AddressEntry} (same : old.id = id)
    (others : ∀ other ∈ before, other.id ≠ id) :
    changeFirst id change (before ++ old :: after) = some (before ++ change old :: after) := by
  induction before with
  | nil => rw [List.nil_append, changeFirst, if_pos same, List.nil_append]
  | cons first rest ih =>
      rw [List.cons_append, changeFirst, if_neg (others first List.mem_cons_self),
        ih fun other inRest => others other (List.mem_cons_of_mem _ inRest), Option.map_some,
        List.cons_append]

theorem changed_one {list : AddressList} (distinct : list.ids.Nodup) {id : Nat}
    (present : id ∈ list.ids) (change : AddressEntry → AddressEntry) :
    list.OneChanged (list.changed id change).2 id fun old => [change old] := by
  obtain ⟨before, old, after, split, same, others⟩ := split_at_id distinct present
  have first : ∀ other ∈ before, other.id ≠ id :=
    fun other inBefore => others other (List.mem_append_left _ inBefore)
  refine ⟨before, old, after, split, same, others, ?_⟩
  rw [changed, split, changeFirst_split same first, List.append_assoc, List.singleton_append]

theorem filter_others {id : Nat} {entries : List AddressEntry}
    (others : ∀ other ∈ entries, other.id ≠ id) : entries.filter (·.id != id) = entries := by
  rw [List.filter_eq_self]
  intro other inList
  rw [bne_iff_ne]
  exact others other inList

theorem remove_one {list : AddressList} (distinct : list.ids.Nodup) {id : Nat}
    (present : id ∈ list.ids) : list.OneChanged (list.remove id).2 id fun _ => [] := by
  obtain ⟨before, old, after, split, same, others⟩ := split_at_id distinct present
  refine ⟨before, old, after, split, same, others, ?_⟩
  have gone : ¬ (old.id != id) = true := by rw [bne_iff_ne, not_not, same]
  rw [(remove_entries list id).1, split, List.filter_append, List.filter_cons, if_neg gone,
    filter_others fun other inBefore => others other (List.mem_append_left _ inBefore),
    filter_others fun other inAfter => others other (List.mem_append_right _ inAfter),
    List.append_nil]

theorem identified_iff {list : AddressList} :
    list.Identified ↔ list.ids.Nodup ∧ list.nextId ∉ list.ids := by
  constructor
  · intro identified
    exact ⟨identified.distinct, identified.fresh {}⟩
  · rintro ⟨distinct, fresh⟩
    exact
      { distinct
        fresh := fun _ => fresh
        updated := fun entry present => changed_one distinct present fun _ => entry
        frozen := fun id present frozen =>
          changed_one distinct present fun old => { old with frozen }
        removed := fun id present => remove_one distinct present }

section Calls

variable {api : Conversion}

/-- A call of the list. The rows that `replace` is handed come from a file the loader
accepts. -/
inductive Call (api : Conversion) where
  | add (entry : AddressEntry)
  | remove (id : Nat)
  | update (entry : AddressEntry)
  | setFrozen (id : Nat) (frozen : Bool)
  | replace (text : Text) (table : ProjectTable) (loaded : load api (some text) = .ok table)

def step (list : AddressList) : Call api → AddressList
  | .add entry => (list.add entry).2
  | .remove id => (list.remove id).2
  | .update entry => (list.update entry).2
  | .setFrozen id frozen => (list.setFrozen id frozen).2
  | .replace _ table _ => list.replace table.entries

/-- The call leaves the counter on an id that is free, and takes no id twice. -/
def Free (list : AddressList) : Call api → Prop
  | .add _ => bump list.nextId ∉ list.ids
  | .replace _ table _ =>
      (table.entries.map (·.id)).Nodup ∧
        ¬ (addressSpace - 1 ∈ table.entries.map (·.id) ∧
          addressSpace - 2 ∈ table.entries.map (·.id))
  | _ => True

theorem step_identified {list : AddressList} (identified : list.Identified) (call : Call api) :
    (list.step call).Identified ↔ list.Free call := by
  obtain ⟨distinct, fresh⟩ := identified_iff.mp identified
  rw [identified_iff]
  cases call with
  | add entry =>
      have ids : (list.step (.add entry : Call api)).ids = list.ids ++ [list.nextId] := by
        simp [step, add, AddressList.ids]
      have next : (list.step (.add entry : Call api)).nextId = bump list.nextId := rfl
      rw [ids, next, Free, List.nodup_append_comm, List.singleton_append, List.nodup_cons,
        List.mem_append, List.mem_singleton]
      constructor
      · rintro ⟨_, free⟩ taken
        exact free (.inl taken)
      · intro free
        refine ⟨⟨fresh, distinct⟩, ?_⟩
        rintro (taken | same)
        · exact free taken
        · exact bump_ne _ same
  | remove id =>
      obtain ⟨fewer, next⟩ := list.remove_ids id
      show (list.remove id).2.ids.Nodup ∧
        (list.remove id).2.nextId ∉ (list.remove id).2.ids ↔ True
      rw [next, iff_true]
      exact ⟨distinct.sublist fewer, fun taken => fresh (fewer.subset taken)⟩
  | update entry =>
      obtain ⟨same, next⟩ := list.update_ids entry
      show (list.update entry).2.ids.Nodup ∧
        (list.update entry).2.nextId ∉ (list.update entry).2.ids ↔ True
      rw [same, next, iff_true]
      exact ⟨distinct, fresh⟩
  | setFrozen id frozen =>
      obtain ⟨same, next⟩ := list.setFrozen_ids id frozen
      show (list.setFrozen id frozen).2.ids.Nodup ∧
        (list.setFrozen id frozen).2.nextId ∉ (list.setFrozen id frozen).2.ids ↔ True
      rw [same, next, iff_true]
      exact ⟨distinct, fresh⟩
  | replace text table loaded =>
      show (table.entries.map (·.id)).Nodup ∧ nextAfter table.entries ∉ table.entries.map (·.id) ↔ _
      rw [nextAfter_mem (load_ids api loaded)]
      exact Iff.rfl

theorem empty_identified : ({} : AddressList).Identified :=
  identified_iff.mpr ⟨List.nodup_nil, List.not_mem_nil⟩

/-- In a run from the empty list the ids keep apart exactly when every call leaves them
free. -/
theorem run_identified (calls : List (Call api)) :
    (∀ done, done <+: calls → (run step {} done).Identified) ↔ Follows step Free {} calls :=
  forall_prefix_iff Identified
    (fun _ call identified => step_identified identified call) empty_identified calls

end Calls

/-- Two rows of one id. -/
def repeatedText : Text :=
  "IRETABLE 3\nentry|1|10|i32|0|a|||\nentry|1|20|i32|0|b|||\n".toList

def repeatedTable : ProjectTable :=
  { entries := [{ id := 1, address := 0x10, description := "a".toList },
      { id := 1, address := 0x20, description := "b".toList }] }

theorem repeated_loaded : load blankConversion (some repeatedText) = .ok repeatedTable := by
  decide +kernel

theorem repeatedText_clash :
    ¬ ∀ calls : List (Call blankConversion), (run step {} calls).Identified := by
  intro every
  have whole := every [.replace repeatedText repeatedTable repeated_loaded]
  exact absurd whole.distinct (by decide)

end AddressList

end PointerLab
