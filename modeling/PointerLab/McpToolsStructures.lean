import PointerLab.DissectorLayout
import PointerLab.McpTools

set_option autoImplicit false

/- Whether the fields that `struct_list` shows can be given back to `struct_set_fields`. -/
namespace PointerLab

open Domain ProjectStore Runs

namespace ProjectStore

theorem isPtrdiff_toSigned {value : Nat} (small : value < addressSpace) :
    IsPtrdiff (toSigned value) := by
  unfold IsPtrdiff toSigned addressSpace at *
  split <;> omega

theorem fieldOf_typed {below : Bool} {offset type length name : Text} {field : StructureField}
    (read : fieldOf below offset type length name = .ok (.field field)) :
    IsPtrdiff field.offset := by
  unfold fieldOf at read
  split at read
  · cases read
  split at read
  · rename_i value _ _ isValue _ _
    dsimp only at read
    generalize (if name.isEmpty then defaultFieldName (toSigned value) else name) = called at read
    split at read
    · cases read
    · cases read
      exact isPtrdiff_toSigned (parseUnsigned_lt isValue)
  · cases read

theorem entryOf_field {api : Conversion} (parts : List Text) (field : StructureField) :
    entryOf api parts ≠ .ok (.field field) := by
  unfold entryOf
  intro read
  split at read
  · split at read <;> cases read
  · cases read

/-- The offsets of every structure are `std::ptrdiff_t`s. -/
def Typed (structures : List Structure) : Prop :=
  ∀ structure_ ∈ structures, ∀ field ∈ structure_.fields, IsPtrdiff field.offset

theorem attach_typed {structures : List Structure} {field : StructureField}
    (typed : Typed structures) (fieldTyped : IsPtrdiff field.offset) :
    Typed (attach structures field) := by
  unfold attach
  cases last : structures.getLast? with
  | none => exact typed
  | some final =>
      intro structure_ inside
      cases List.mem_append.mp inside with
      | inl earlier => exact typed structure_ (List.dropLast_subset _ earlier)
      | inr new =>
          rw [List.mem_singleton.mp new]
          intro other isOther
          cases List.mem_append.mp isOther with
          | inl old => exact typed final (List.mem_of_getLast? last) other old
          | inr same => exact List.mem_singleton.mp same ▸ fieldTyped

theorem join_typed {table : ProjectTable} {record : Record} (typed : Typed table.structures)
    (fieldTyped : ∀ field, record = .field field → IsPtrdiff field.offset) :
    Typed (table.join record).structures := by
  cases record with
  | struct name =>
      intro structure_ inside
      cases List.mem_append.mp inside with
      | inl earlier => exact typed structure_ earlier
      | inr new =>
          rw [List.mem_singleton.mp new]
          exact fun _ => nofun
  | field field => exact attach_typed typed (fieldTyped field rfl)
  | _ => exact typed

theorem recordOf_typed {api : Conversion} {line : Text} {field : StructureField}
    (read : recordOf api line = some (.field field)) : IsPtrdiff field.offset := by
  unfold recordOf meaning at read
  split at read
  · rename_i record said
    cases read
    split at said
    · cases said
    rcases partsSay_ok api (Option.some.inj said) with other | isField | isEntry
    · exact absurd rfl (other.1 field)
    · exact fieldOf_typed isField
    · exact absurd isEntry (entryOf_field _ _)
  · cases read

theorem load_typed {api : Conversion} {text : Text} {table : ProjectTable}
    (loaded : load api (some text) = .ok table) : Typed table.structures := by
  rw [load_eq api loaded]
  have given : ∀ record ∈ records api (Pieces.pieces '\n' text).tail,
      ∀ field, record = .field field → IsPtrdiff field.offset := by
    intro record inside field same
    obtain ⟨line, _, read⟩ := List.mem_filterMap.mp inside
    exact recordOf_typed (same ▸ read)
  generalize records api (Pieces.pieces '\n' text).tail = file at given
  have kept : ∀ start : ProjectTable, Typed start.structures →
      Typed (file.foldl ProjectTable.join start).structures := by
    induction file with
    | nil => exact fun _ typed => typed
    | cons record rest ih =>
        obtain ⟨first, later⟩ := List.forall_mem_cons.mp given
        exact fun start typed => ih later _ (join_typed typed first)
  exact kept {} fun _ => nofun

end ProjectStore

namespace Dissector

/-- In every structure the fields are in the order of their offsets and have names. -/
structure Listed (fields : List StructureField) : Prop where
  sorted : (fields.map StructureField.offset).Pairwise fun left right => left ≤ right
  named : ∀ field ∈ fields, field.name ≠ []
  typed : ∀ field ∈ fields, IsPtrdiff field.offset

theorem replaceAt_offsets (field : StructureField) (fields : List StructureField) :
    (replaceAt field fields).map StructureField.offset = fields.map StructureField.offset := by
  induction fields with
  | nil => rfl
  | cons first rest ih =>
      unfold replaceAt
      split
      · rename_i same
        rw [List.map_cons, List.map_cons, same]
      · rw [List.map_cons, List.map_cons, ih]

theorem mem_place {field other : StructureField} {fields : List StructureField}
    (inside : other ∈ place field fields) : other = field ∨ other ∈ fields := by
  unfold place at inside
  split at inside
  · exact mem_replaceAt inside
  · rw [List.mem_insertionSort, List.mem_append, List.mem_singleton] at inside
    exact inside.symm

/-- What the loop of `setFields` changes is the names that are missing. -/
theorem laidOut_offsets {before : Option StructureField} {fields result : List StructureField}
    (passes : laidOut before fields = .ok result) :
    result.map StructureField.offset = fields.map StructureField.offset ∧
      ∀ field ∈ result, field.name ≠ [] := by
  induction fields generalizing before result with
  | nil =>
      cases passes
      exact ⟨rfl, fun _ => nofun⟩
  | cons field rest ih =>
      unfold laidOut at passes
      split at passes
      · cases passes
      split at passes
      · cases passes
      simp only at passes
      split at passes
      · cases passes
      · rename_i later laid
        cases passes
        obtain ⟨offsets, named⟩ := ih laid
        refine ⟨by rw [List.map_cons, List.map_cons, offsets], ?_⟩
        exact List.forall_mem_cons.mpr ⟨name_ne_nil field, named⟩

theorem sorted_insertionSort (fields : List StructureField) :
    ((fields.insertionSort fun left right => left.offset ≤ right.offset).map
      StructureField.offset).Pairwise fun left right => left ≤ right :=
  List.pairwise_map.mpr (List.pairwise_insertionSort (fun left right : StructureField =>
    left.offset ≤ right.offset) fields)

theorem sorted_place (field : StructureField) {fields : List StructureField}
    (sorted : (fields.map StructureField.offset).Pairwise fun left right => left ≤ right) :
    ((place field fields).map StructureField.offset).Pairwise fun left right => left ≤ right := by
  unfold place
  split
  · rw [replaceAt_offsets]
    exact sorted
  · exact sorted_insertionSort _

theorem listed_stable : Stable (fun field => IsPtrdiff field.offset) Listed where
  nil := ⟨.nil, fun _ => nofun, fun _ => nofun⟩
  sublist := fun listed part =>
    ⟨listed.sorted.sublist (part.map _),
      fun field inside => listed.named field (part.subset inside),
      fun field inside => listed.typed field (part.subset inside)⟩
  place := by
    intro field fields listed _ typed _
    refine ⟨sorted_place _ listed.sorted, ?_, ?_⟩
    · intro other inside
      rcases mem_place inside with new | old
      · rw [new]
        exact name_ne_nil field
      · exact listed.named other old
    · intro other inside
      rcases mem_place inside with new | old
      · rw [new]
        exact typed
      · exact listed.typed other old
  laidOut := by
    intro fields result typed passes
    obtain ⟨offsets, named⟩ := laidOut_offsets passes
    refine ⟨offsets ▸ sorted_insertionSort fields, named, ?_⟩
    intro field inside
    have listed : field.offset ∈ result.map StructureField.offset := List.mem_map_of_mem inside
    rw [offsets] at listed
    obtain ⟨given, isGiven, same⟩ := List.mem_map.mp listed
    rw [← same]
    exact typed given ((List.mem_insertionSort _).mp isGiven)
  guessed := by
    intro bitness ranges windows size small field inside
    have fits := slotsFrom_fits small 0 field inside
    exact ⟨fits.lower, by have upper := fits.upper; omega⟩

/-- The fields a change is given have the offsets of their type. -/
def Change.Typed : Change → Prop
  | .setField _ field => IsPtrdiff field.offset
  | .setFields _ fields => ∀ field ∈ fields, IsPtrdiff field.offset
  | _ => True

theorem Change.Typed.allowed {change : Change} (typed : change.Typed) (api : Conversion) :
    change.Allowed api fun field => IsPtrdiff field.offset := by
  cases change with
  | load text => exact fun table loaded => load_typed loaded
  | _ => exact typed

end Dissector

namespace McpTools

/-- `struct_set_fields` with the fields of a structure as `struct_list` shows them. -/
def givenBack (structure_ : Structure) : Json :=
  .object [("id", .integer structure_.id), ("fields", fieldObjects structure_)]

/-- It succeeds, and the structure is what it was. -/
def RoundTrips (d : Dissector) (structure_ : Structure) : Prop :=
  (∃ reply, (structSetFields (givenBack structure_) d).2 = .ok reply) ∧
    (structSetFields (givenBack structure_) d).1.find structure_.id = some structure_

/-- No offset is negative, every width comes from the type alone, and no field starts before the
one in front of it ends. -/
structure Plain (fields : List StructureField) : Prop where
  positive : ∀ field ∈ fields, 0 ≤ field.offset
  fixed : ∀ field ∈ fields, valueTypeSize field.type ≠ 0 ∧ field.length = 0
  behind : Dissector.Behind fields

theorem size_plain (offset : Int) (type : ValueType) (name : Text) :
    StructureField.size { offset, type, name } = valueTypeSize type := by
  simp only [StructureField.size]
  split
  · rfl
  · rename_i variable_
    have zero : valueTypeSize type = 0 := by simpa using variable_
    exact zero.symm

theorem readField_fieldObject (field : StructureField) (typed : IsPtrdiff field.offset) :
    readField (fieldObject field) =
      if field.offset < 0 then fail "offset must not be negative."
      else if valueTypeSize field.type = 0 then
        fail ("A " ++ String.ofList (valueTypeName field.type) ++
          " field needs a length, because its width does not come from its type.")
      else .ok { field with length := 0 } := by
  have offset : requireUint (fieldObject field) "offset" =
      if field.offset < 0 then fail "offset must not be negative."
      else .ok field.offset.toNat := rfl
  have type : requireValueType (fieldObject field) "type" .int32 = .ok field.type := by
    have named : requireString (fieldObject field) "type" = .ok (valueTypeName field.type) := rfl
    have given : (argument (fieldObject field) "type").isNone = false := rfl
    simp only [requireValueType, given, named, parseValueType_name]
    rfl
  have length : optionalUint (fieldObject field) "length" 0 = 0 := rfl
  have name : ∀ fallback, optionalString (fieldObject field) "name" fallback = field.name :=
    fun _ => rfl
  unfold readField
  unfold fieldObject at *
  simp only [offset, type, length, name]
  by_cases negative : field.offset < 0
  · rw [if_pos negative, if_pos negative]
    rfl
  · rw [if_neg negative, if_neg negative]
    have same : toSigned field.offset.toNat = field.offset := by
      have upper := typed.2
      unfold toSigned
      split <;> omega
    simp only [same, size_plain]

/-- A field that `struct_set_fields` reads from its own object. -/
def Readable (field : StructureField) : Prop :=
  0 ≤ field.offset ∧ valueTypeSize field.type ≠ 0

theorem readField_ok {field read : StructureField} (typed : IsPtrdiff field.offset) :
    readField (fieldObject field) = .ok read ↔
      Readable field ∧ read = { field with length := 0 } := by
  rw [readField_fieldObject field typed]
  unfold Readable
  split
  · rename_i negative
    exact iff_of_false nofun fun both => Int.not_le.mpr negative both.1.1
  split
  · rename_i wide
    exact iff_of_false nofun fun both => both.1.2 wide
  · rename_i positive fixed
    constructor
    · intro same
      exact ⟨⟨Int.not_lt.mp positive, fixed⟩, (Except.ok.inj same).symm⟩
    · intro both
      rw [both.2]

theorem readFields_ok {fields read : List StructureField}
    (typed : ∀ field ∈ fields, IsPtrdiff field.offset) :
    readFields (fields.map fieldObject) = .ok read ↔
      (∀ field ∈ fields, Readable field) ∧
        read = fields.map fun field => { field with length := 0 } := by
  induction fields generalizing read with
  | nil =>
      have none_ : readFields ([].map fieldObject) = .ok [] := rfl
      rw [none_]
      simp [eq_comm]
  | cons field rest ih =>
      obtain ⟨firstTyped, restTyped⟩ := List.forall_mem_cons.mp typed
      rw [List.map_cons, readFields, List.forall_mem_cons, List.map_cons]
      constructor
      · intro passes
        split at passes
        · cases passes
        rename_i first isFirst
        split at passes
        · cases passes
        rename_i later isLater
        obtain ⟨readable, first_eq⟩ := (readField_ok firstTyped).mp isFirst
        obtain ⟨others, later_eq⟩ := (ih restTyped).mp isLater
        cases passes
        exact ⟨⟨readable, others⟩, by rw [first_eq, later_eq]⟩
      · intro ⟨⟨readable, others⟩, same⟩
        rw [(readField_ok firstTyped).mpr ⟨readable, rfl⟩, (ih restTyped).mpr ⟨others, rfl⟩, same]

theorem structSetFields_ok {d : Dissector} {structure_ : Structure} {reply : Json}
    (succeeds : (structSetFields (givenBack structure_) d).2 = .ok reply) :
    ∃ fields, readFields (structure_.fields.map fieldObject) = .ok fields ∧
      (d.setFields structure_.id fields).2 = .ok () ∧
      (structSetFields (givenBack structure_) d).1 = (d.setFields structure_.id fields).1 := by
  have id : requireUint (givenBack structure_) "id" = .ok structure_.id := rfl
  have entries : argument (givenBack structure_) "fields" =
      some (.array (structure_.fields.map fieldObject)) := rfl
  unfold structSetFields at succeeds ⊢
  simp only [id, entries] at succeeds ⊢
  cases read : readFields (structure_.fields.map fieldObject) with
  | error failure =>
      rw [read] at succeeds
      cases succeeds
  | ok fields =>
      rw [read] at succeeds
      simp only at succeeds ⊢
      rcases sets : d.setFields structure_.id fields with ⟨after, failure | _⟩
      · rw [sets] at succeeds
        cases succeeds
      · exact ⟨fields, rfl, by rw [sets], by rw [sets]⟩

theorem structSetFields_of_read {d : Dissector} {structure_ : Structure}
    {fields : List StructureField}
    (read : readFields (structure_.fields.map fieldObject) = .ok fields)
    (sets : (d.setFields structure_.id fields).2 = .ok ()) :
    (structSetFields (givenBack structure_) d).2 = .ok (.object [("id", .integer structure_.id)]) ∧
      (structSetFields (givenBack structure_) d).1 = (d.setFields structure_.id fields).1 := by
  have id : requireUint (givenBack structure_) "id" = .ok structure_.id := rfl
  have entries : argument (givenBack structure_) "fields" =
      some (.array (structure_.fields.map fieldObject)) := rfl
  unfold structSetFields
  simp only [id, entries, read]
  rcases answer : d.setFields structure_.id fields with ⟨after, failure | _⟩
  · rw [answer] at sets
    cases sets
  · exact ⟨rfl, rfl⟩

/-- Fields that are in order already go through the loop of `setFields` as they are. -/
theorem setFields_laidOut {d : Dissector} {structure_ : Structure}
    (found : d.find structure_.id = some structure_) {fields laid : List StructureField}
    (sorted : (fields.map StructureField.offset).Pairwise fun left right => left ≤ right)
    (passes : Dissector.laidOut none fields = .ok laid) :
    (d.setFields structure_.id fields).2 = .ok () ∧
      (d.setFields structure_.id fields).1.find structure_.id =
        some { structure_ with fields := laid } := by
  obtain ⟨changed, changes, now⟩ := Dissector.changeFields_of_find found laid
  unfold Dissector.setFields
  simp only [Dissector.insertionSort_sorted sorted, passes, changes]
  exact ⟨trivial, now⟩

theorem laidOut_of_setFields {d : Dissector} {id : Nat} {fields : List StructureField}
    (sorted : (fields.map StructureField.offset).Pairwise fun left right => left ≤ right)
    (sets : (d.setFields id fields).2 = .ok ()) :
    ∃ laid, Dissector.laidOut none fields = .ok laid := by
  unfold Dissector.setFields at sets
  rw [Dissector.insertionSort_sorted sorted] at sets
  cases laid : Dissector.laidOut none fields with
  | error failure =>
      rw [laid] at sets
      cases sets
  | ok named => exact ⟨named, rfl⟩

/-- The fields come back as they were exactly when they are plain. -/
theorem roundTrips_iff_plain {d : Dissector} {structure_ : Structure}
    (found : d.find structure_.id = some structure_)
    (listed : Dissector.Listed structure_.fields) :
    RoundTrips d structure_ ↔ Plain structure_.fields := by
  have offsets : (structure_.fields.map fun field => { field with length := 0 }).map
      StructureField.offset = structure_.fields.map StructureField.offset := by
    rw [List.map_map]
    rfl
  have sorted := listed.sorted
  rw [← offsets] at sorted
  constructor
  · intro ⟨⟨reply, succeeds⟩, now⟩
    obtain ⟨fields, read, sets, after⟩ := structSetFields_ok succeeds
    obtain ⟨readable, fields_eq⟩ := (readFields_ok listed.typed).mp read
    rw [← fields_eq] at sorted
    obtain ⟨laid, passes⟩ := laidOut_of_setFields sorted sets
    rw [after, (setFields_laidOut found sorted passes).2] at now
    have laid_eq : laid = structure_.fields := congrArg Structure.fields (Option.some.inj now)
    have named : ∀ field ∈ fields, field.name ≠ [] := by
      rw [fields_eq]
      exact List.forall_mem_map.mpr listed.named
    have wide : ∀ field ∈ fields, field.size ≠ 0 := by
      rw [fields_eq]
      intro field inside
      obtain ⟨shown, isShown, same⟩ := List.mem_map.mp inside
      rw [← same, size_plain]
      exact (readable shown isShown).2
    have again := Dissector.laidOut_of_behind named wide (Dissector.laidOut_behind passes)
    have same : structure_.fields = fields :=
      laid_eq.symm.trans (Except.ok.inj (passes.symm.trans again))
    have behind := Dissector.laidOut_behind passes
    refine ⟨fun field inside => (readable field inside).1, ?_, same ▸ behind⟩
    intro field inside
    refine ⟨(readable field inside).2, ?_⟩
    rw [same, fields_eq] at inside
    obtain ⟨shown, _, isField⟩ := List.mem_map.mp inside
    rw [← isField]
  · intro plain
    have same : (structure_.fields.map fun field => { field with length := 0 }) =
        structure_.fields := by
      have each : ∀ field ∈ structure_.fields, { field with length := 0 } = id field := by
        intro field inside
        rw [← (plain.fixed field inside).2]
        rfl
      rw [List.map_congr_left each, List.map_id]
    have readable : ∀ field ∈ structure_.fields, Readable field :=
      fun field inside => ⟨plain.positive field inside, (plain.fixed field inside).1⟩
    have wide : ∀ field ∈ structure_.fields, field.size ≠ 0 := by
      intro field inside
      have fixed := (plain.fixed field inside).1
      simp only [StructureField.size]
      rw [if_pos (by simpa using fixed)]
      exact fixed
    have read := (readFields_ok listed.typed).mpr ⟨readable, same.symm⟩
    have passes := @Dissector.laidOut_of_behind none structure_.fields listed.named wide
      plain.behind
    obtain ⟨sets, now⟩ := setFields_laidOut found listed.sorted passes
    obtain ⟨answers, after⟩ := structSetFields_of_read read sets
    exact ⟨⟨_, answers⟩, by rw [after, now]⟩

/-- Whichever way the structures came in, the fields that `struct_list` shows of one can be given
back exactly when they are plain. -/
theorem givenBack_iff (api : Conversion) {changes : List Dissector.Change}
    (typed : ∀ change ∈ changes, change.Typed) {structure_ : Structure}
    (found : (run (Dissector.change api) {} changes).find structure_.id = some structure_) :
    RoundTrips (run (Dissector.change api) {} changes) structure_ ↔ Plain structure_.fields := by
  have every := Dissector.every_run Dissector.listed_stable fun change inside =>
    (typed change inside).allowed api
  exact roundTrips_iff_plain found (every.find found)

/-- A list of changes that leads to a structure. -/
def defining (structure_ : Structure) : List Dissector.Change :=
  [.add structure_.name, .setFields 1 structure_.fields]

def player : Structure :=
  { id := 1
    name := "Player".toList
    fields := [{ offset := 0, type := .int32, name := "health".toList },
      { offset := 8, type := .double, name := "speed".toList }] }

def packet : Structure :=
  { id := 1
    name := "Packet".toList
    fields := [{ offset := 0, type := .bytes, length := 4, name := "tag".toList }] }

def header : Structure :=
  { id := 1
    name := "Header".toList
    fields := [{ offset := -8, type := .int32, name := "count".toList }] }

theorem givenBack_player :
    RoundTrips (run (Dissector.change blankConversion) {} (defining player)) player := by
  refine (givenBack_iff blankConversion ?_ (by decide)).mpr ?_
  · unfold defining player
    simp [Dissector.Change.Typed, IsPtrdiff]
  · exact ⟨by decide, by decide, by decide⟩

/-- A field of bytes, whose length is not shown, and a field in front of the address. -/
theorem givenBack_fails :
    ((run (Dissector.change blankConversion) {} (defining packet)).find 1 = some packet ∧
      ¬ RoundTrips (run (Dissector.change blankConversion) {} (defining packet)) packet) ∧
    ((run (Dissector.change blankConversion) {} (defining header)).find 1 = some header ∧
      ¬ RoundTrips (run (Dissector.change blankConversion) {} (defining header)) header) := by
  refine ⟨⟨by decide, ?_⟩, ⟨by decide, ?_⟩⟩
  · intro ⟨⟨_, succeeds⟩, _⟩
    cases succeeds
  · intro ⟨⟨_, succeeds⟩, _⟩
    cases succeeds

end McpTools

end PointerLab
