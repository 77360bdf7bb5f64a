import Mathlib.Data.List.Induction
import Mathlib.Data.List.Nodup
import Mathlib.Data.List.TakeWhile

set_option autoImplicit false

/- Records that are kept as lines of a key and a value, one for each field. A reader goes over
the lines and sets what it can; a line that it cannot use costs nothing but itself. -/
namespace KeyedFields

variable {Record : Type}

/-- A field of a record: its key, where it is in the record, and how its value is written. -/
structure Slot (Record : Type) where
  key : List Char
  Value : Type
  get : Record → Value
  set : Value → Record → Record
  format : Value → List Char
  parse : List Char → Option Value

/-- The first field of a key that can read the text takes it. -/
def assign (key text : List Char) : List (Slot Record) → Record → Option Record
  | [], _ => none
  | field :: rest, record =>
      if field.key = key then
        match field.parse text with
        | some value => some (field.set value record)
        | none => assign key text rest record
      else assign key text rest record

/-- A line at its first `=`. -/
def splitLine (line : List Char) : Option (List Char × List Char) :=
  match line.dropWhile (· != '=') with
  | [] => none
  | _ :: text => some (line.takeWhile (· != '='), text)

/-- The record after a line. -/
def readLine (fields : List (Slot Record)) (record : Record) (line : List Char) : Record :=
  match splitLine line with
  | none => record
  | some (key, text) => (assign key text fields record).getD record

/-- The value that a line has for a field. -/
def Slot.value (field : Slot Record) (line : List Char) : Option field.Value :=
  match splitLine line with
  | none => none
  | some (key, text) => if field.key = key then field.parse text else none

/-- No field has a value on the line. -/
def useless (fields : List (Slot Record)) (line : List Char) : Bool :=
  fields.all fun field => (field.value line).isNone

/-- The line of a field. -/
def Slot.line (field : Slot Record) (record : Record) : List Char :=
  field.key ++ '=' :: field.format (field.get record)

/-- The fields do not get in each other's way. -/
structure Apart (field other : Slot Record) : Prop where
  key : field.key ≠ other.key
  get_set : ∀ value record, field.get (other.set value record) = field.get record
  set_get : ∀ value record, other.get (field.set value record) = other.get record

/-- Fields that are the whole of a record. -/
structure Complete (fields : List (Slot Record)) : Prop where
  apart : fields.Pairwise Apart
  own : ∀ field ∈ fields, ∀ value record, field.get (field.set value record) = value
  keys : ∀ field ∈ fields, '=' ∉ field.key
  whole : ∀ left right, (∀ field ∈ fields, field.get left = field.get right) → left = right

theorem splitLine_key {key : List Char} (plain : '=' ∉ key) (text : List Char) :
    splitLine (key ++ '=' :: text) = some (key, text) := by
  have other : ∀ c ∈ key, (c != '=') = true := by
    intro c inKey
    rw [bne_iff_ne]
    rintro rfl
    exact plain inKey
  rw [splitLine, List.dropWhile_append_of_pos other, List.takeWhile_append_of_pos other]
  simp

theorem Apart.symm {field other : Slot Record} (apart : Apart field other) :
    Apart other field :=
  ⟨apart.key.symm, apart.set_get, apart.get_set⟩

/-- A line of another key leaves a field as it is. -/
theorem get_assign_of_apart {field : Slot Record} {fields : List (Slot Record)}
    (apart : ∀ other ∈ fields, Apart field other) {key text : List Char} {record after : Record}
    (assigned : assign key text fields record = some after) :
    field.get after = field.get record := by
  induction fields with
  | nil => exact nomatch assigned
  | cons first rest ih =>
      have later := ih fun other inRest => apart other (List.mem_cons_of_mem _ inRest)
      rw [assign] at assigned
      split at assigned
      · split at assigned
        · rw [← Option.some.inj assigned]
          exact (apart first List.mem_cons_self).get_set _ record
        · exact later assigned
      · exact later assigned

/-- Nobody takes a line that no field of its key can read. -/
theorem assign_eq_none_iff {fields : List (Slot Record)} {key text : List Char} {record : Record} :
    assign key text fields record = none ↔
      ∀ field ∈ fields, field.key = key → field.parse text = none := by
  induction fields with
  | nil => exact iff_of_true rfl fun _ inside => absurd inside List.not_mem_nil
  | cons first rest ih =>
      rw [assign, List.forall_mem_cons]
      by_cases here : first.key = key
      · rw [if_pos here]
        cases first.parse text with
        | some value => simp [here]
        | none => simpa [here] using ih
      · rw [if_neg here, ih]
        simp [here]

/-- A line sets the field it is for, and no other. -/
theorem get_assign {fields : List (Slot Record)} (apart : fields.Pairwise Apart)
    (own : ∀ field ∈ fields, ∀ value record, field.get (field.set value record) = value)
    {field : Slot Record} (listed : field ∈ fields) (key text : List Char) (record : Record) :
    field.get ((assign key text fields record).getD record) =
      (if field.key = key then field.parse text else none).getD (field.get record) := by
  induction fields with
  | nil => exact absurd listed List.not_mem_nil
  | cons first rest ih =>
      obtain ⟨head, tail⟩ := List.pairwise_cons.mp apart
      have later := ih tail fun other inRest => own other (List.mem_cons_of_mem _ inRest)
      rw [assign]
      rcases List.mem_cons.mp listed with rfl | inRest
      · by_cases here : field.key = key
        · rw [if_pos here, if_pos here]
          cases field.parse text with
          | some value => exact own field listed value record
          | none =>
              have others : ∀ other ∈ rest, other.key ≠ key := fun other inRest same =>
                (head other inRest).key (here.trans same.symm)
              have nobody : assign key text rest record = none :=
                assign_eq_none_iff.mpr fun other inRest same => absurd same (others other inRest)
              simp only [nobody, Option.getD_none]
        · have untouched (after : Record) (assigned : assign key text rest record = some after) :=
            get_assign_of_apart head assigned
          rw [if_neg here, if_neg here, Option.getD_none]
          cases assigned : assign key text rest record with
          | none => rfl
          | some after => exact untouched after assigned
      · by_cases here : first.key = key
        · have other : field.key ≠ key := fun same => (head field inRest).key (here.trans same.symm)
          rw [if_pos here, if_neg other]
          cases first.parse text with
          | some value => exact (head field inRest).set_get value record
          | none =>
              rw [if_neg other] at later
              exact later inRest
        · rw [if_neg here]
          exact later inRest

variable {fields : List (Slot Record)}

theorem useless_iff {line : List Char} :
    useless fields line = true ↔ ∀ field ∈ fields, field.value line = none := by
  simp only [useless, List.all_eq_true, Option.isNone_iff_eq_none]

/-- A line that is taken has a value for some field. -/
theorem isNone_assign {line key text : List Char} (split : splitLine line = some (key, text))
    (record : Record) : (assign key text fields record).isNone = useless fields line := by
  rw [Bool.eq_iff_iff, Option.isNone_iff_eq_none, assign_eq_none_iff, useless_iff]
  refine forall₂_congr fun field _ => ?_
  rw [Slot.value, split]
  exact Iff.symm ite_eq_right_iff

theorem get_readLine (complete : Complete fields) {field : Slot Record} (listed : field ∈ fields)
    (record : Record) (line : List Char) :
    field.get (readLine fields record line) = (field.value line).getD (field.get record) := by
  rw [readLine, Slot.value]
  cases splitLine line with
  | none => rfl
  | some split => exact get_assign complete.apart complete.own listed split.1 split.2 record

/-- After all lines a field has the value of the last line that has one for it. -/
theorem get_readLines (complete : Complete fields) {field : Slot Record} (listed : field ∈ fields)
    (lines : List (List Char)) (record : Record) :
    field.get (lines.foldl (readLine fields) record) =
      ((lines.filterMap field.value).getLast?).getD (field.get record) := by
  induction lines using List.reverseRecOn with
  | nil => rfl
  | append_singleton lines last ih =>
      rw [List.foldl_append, List.foldl_cons, List.foldl_nil, get_readLine complete listed, ih,
        List.filterMap_append]
      cases value : field.value last with
      | none => simp [value]
      | some value_ => simp [value]

/-- The lines of a record have one value for each of its fields. -/
theorem values_of_lines (complete : Complete fields) {field : Slot Record}
    (listed : field ∈ fields) {record : Record}
    (reads : field.parse (field.format (field.get record)) = some (field.get record)) :
    ((fields.map fun other => other.line record).filterMap field.value).getLast? =
      some (field.get record) := by
  have own : field.value (field.line record) = some (field.get record) := by
    rw [Slot.value, Slot.line, splitLine_key (complete.keys field listed)]
    exact (if_pos rfl).trans reads
  have foreign {other : Slot Record} (inFields : other ∈ fields) (apart : Apart field other) :
      field.value (other.line record) = none := by
    rw [Slot.value, Slot.line, splitLine_key (complete.keys other inFields)]
    exact if_neg apart.key
  obtain ⟨before, after, split⟩ := List.append_of_mem listed
  have pairwise := split ▸ complete.apart
  rw [List.pairwise_append, List.pairwise_cons] at pairwise
  obtain ⟨_, ⟨behind, _⟩, ahead⟩ := pairwise
  have noneAfter : (after.map fun other => other.line record).filterMap field.value = [] := by
    rw [List.filterMap_eq_nil_iff]
    intro line inLines
    obtain ⟨other, inAfter, rfl⟩ := List.mem_map.mp inLines
    exact foreign (split ▸ List.mem_append_right _ (List.mem_cons_of_mem _ inAfter))
      (behind other inAfter)
  rw [split, List.map_append, List.map_cons, List.filterMap_append, List.filterMap_cons, own,
    noneAfter]
  simp

/-- A record that is written and read is the record, whatever the reader starts from. -/
theorem readLines_lines (complete : Complete fields) {record : Record}
    (reads : ∀ field ∈ fields,
      field.parse (field.format (field.get record)) = some (field.get record))
    (start : Record) :
    (fields.map fun field => field.line record).foldl (readLine fields) start = record := by
  apply complete.whole
  intro field listed
  rw [get_readLines complete listed, values_of_lines complete listed (reads field listed),
    Option.getD_some]

end KeyedFields
