import PointerLab.ProjectStore
import Mathlib.Data.List.Basic

set_option autoImplicit false

/- What each line of a project file says by itself, and what a file says line by line. -/
namespace PointerLab.ProjectStore

open Domain Digits Pieces

/-- Why the loader skips a line. A malformed chain is not among these: it is reported, and
its row is kept as a fixed address. -/
inductive Warning where
  | unreadablePid
  | unrecognisedBitness
  | incompleteSymbol
  | emptyScript
  | fieldBeforeStruct
  | unreadableField
  | fieldWithoutWidth
  | unreadableIdOrAddress
  | unknownValueType
  | unrecognisedRecord
  deriving DecidableEq, Repr

/-- What a line adds to the table. -/
inductive Record where
  | pid (pid : Nat)
  | process (name : WideText)
  | bitness (bitness : Bitness)
  | symbol (symbol : SavedSymbol)
  | script (script : SavedScript)
  | struct (name : Text)
  | field (field : StructureField)
  | entry (entry : AddressEntry)
  deriving DecidableEq, Repr

def bitnessOf (value : Text) : Except Warning Record :=
  if value == "x86".toList then .ok (.bitness .x86)
  else if value == "x64".toList then .ok (.bitness .x64)
  else .error .unrecognisedBitness

/-- A field record, below a structure or not. -/
def fieldOf (below : Bool) (offset type length name : Text) : Except Warning Record :=
  if !below then .error .fieldBeforeStruct
  else
    match parseUnsigned offset 16, parseValueType type, parseUnsigned length 10 with
    | some offset, some type, some length =>
        let offset := toSigned offset
        let name := if name.isEmpty then defaultFieldName offset else name
        let field : StructureField := { offset, type, length, name }
        if field.size = 0 then .error .fieldWithoutWidth else .ok (.field field)
    | _, _, _ => .error .unreadableField

section Read

variable (api : Conversion)

def entryOf (parts : List Text) : Except Warning Record :=
  match parseUnsigned (parts.getD 1 []) 10, parseUnsigned (parts.getD 2 []) 16 with
  | some id, some address =>
      match parseValueType (parts.getD 3 []) with
      | some type =>
          .ok (.entry
            { id, address, type,
              frozen := parts.getD 4 [] == ['1'],
              description := parts.getD 5 [],
              group := parts.getD 6 [],
              hotkey := parts.getD 7 [],
              frozenValue := parseHexBytes (parts.getD 8 []),
              chain := readChain api parts,
              resolved := (readChain api parts).isNone })
      | none => .error .unknownValueType
  | _, _ => .error .unreadableIdOrAddress

/-- What the parts of a line say, below a structure or not. -/
def partsSay (below : Bool) (parts : List Text) : Except Warning Record :=
  let kind := parts.getD 0 []
  let count := parts.length
  if kind == "pid".toList && 2 ≤ count then
    match parseUnsigned (parts.getD 1 []) 10 with
    | some pid => .ok (.pid (pid % 0x100000000))
    | none => .error .unreadablePid
  else if kind == "process".toList && 2 ≤ count then
    .ok (.process (widen api (parts.getD 1 [])))
  else if kind == "bitness".toList && 2 ≤ count then bitnessOf (parts.getD 1 [])
  else if kind == "symbol".toList && 3 ≤ count then
    if (parts.getD 1 []).isEmpty || (parts.getD 2 []).isEmpty then .error .incompleteSymbol
    else .ok (.symbol { name := parts.getD 1 [], expression := parts.getD 2 [] })
  else if kind == "script".toList && 3 ≤ count then
    if (parts.getD 1 []).isEmpty && (parts.getD 2 []).isEmpty then .error .emptyScript
    else .ok (.script { name := parts.getD 1 [], source := parts.getD 2 [] })
  else if kind == "struct".toList && 2 ≤ count then .ok (.struct (parts.getD 1 []))
  else if kind == "field".toList && 5 ≤ count then
    fieldOf below (parts.getD 1 []) (parts.getD 2 []) (parts.getD 3 []) (parts.getD 4 [])
  else if kind == "entry".toList && 9 ≤ count then entryOf api parts
  else .error .unrecognisedRecord

/-- What a line says. A blank one says nothing, and nothing is reported for it. -/
def meaning (below : Bool) (line : Text) : Option (Except Warning Record) :=
  if (stripBreaks line).isEmpty then none
  else some (partsSay api below (splitEscaped (stripBreaks line)))

/-- The loader reports the line as skipped. -/
def Skipped (table : ProjectTable) (line : Text) : Prop :=
  ∃ warning, meaning api (!table.structures.isEmpty) line = some (.error warning)

/-- The record on a line, if it can be read. -/
def recordOf (line : Text) : Option Record :=
  match meaning api true line with
  | some (.ok record) => some record
  | _ => none

end Read

/-- A field goes to the last structure, and nowhere when there is none. -/
def attach (structures : List Structure) (field : StructureField) : List Structure :=
  match structures.getLast? with
  | none => structures
  | some last => structures.dropLast ++ [{ last with fields := last.fields ++ [field] }]

/-- A table with one more record. -/
def ProjectTable.join (table : ProjectTable) : Record → ProjectTable
  | .pid pid => { table with lastPid := pid }
  | .process name => { table with lastProcessName := name }
  | .bitness bitness => { table with lastBitness := bitness }
  | .symbol symbol => { table with symbols := table.symbols ++ [symbol] }
  | .script script => { table with scripts := table.scripts ++ [script] }
  | .struct name => readStruct table name
  | .field field => { table with structures := attach table.structures field }
  | .entry entry => { table with entries := table.entries ++ [entry] }

def joinRecord (table : ProjectTable) : Except Warning Record → ProjectTable
  | .ok record => table.join record
  | .error _ => table

theorem readBitness_eq (table : ProjectTable) (value : Text) :
    readBitness table value = joinRecord table (bitnessOf value) := by
  unfold readBitness bitnessOf
  split_ifs <;> rfl

theorem joinRecord_field (table : ProjectTable) (field : StructureField) (narrow_ : Prop)
    [Decidable narrow_] :
    joinRecord table (if narrow_ then .error .fieldWithoutWidth else .ok (.field field)) =
      if narrow_ then table else { table with structures := attach table.structures field } := by
  split_ifs <;> rfl

theorem readField_eq (table : ProjectTable) (offset type length name : Text) :
    readField table offset type length name =
      joinRecord table (fieldOf true offset type length name) := by
  unfold readField fieldOf
  simp only [Bool.not_true, Bool.false_eq_true, if_false]
  cases last : table.structures.getLast? <;> cases parseUnsigned offset 16 <;>
    cases parseValueType type <;> cases parseUnsigned length 10 <;> try rfl
  all_goals simp only [joinRecord_field, attach, last, ite_self]

/-- A field below no structure is skipped, whatever it says. -/
theorem joinRecord_fieldOf (table : ProjectTable) (offset type length name : Text) :
    joinRecord table (fieldOf (!table.structures.isEmpty) offset type length name) =
      joinRecord table (fieldOf true offset type length name) := by
  cases structures : table.structures with
  | cons first rest => rfl
  | nil =>
      rw [← readField_eq, readField, structures]
      rfl

section Read

variable (api : Conversion)

theorem readEntry_eq (table : ProjectTable) (parts : List Text) :
    readEntry api table parts = joinRecord table (entryOf api parts) := by
  unfold readEntry entryOf
  cases parseUnsigned (parts.getD 1 []) 10 <;> cases parseUnsigned (parts.getD 2 []) 16 <;>
    cases parseValueType (parts.getD 3 []) <;> rfl

theorem readRecord_eq (table : ProjectTable) (parts : List Text) :
    readRecord api table parts = joinRecord table (partsSay api true parts) := by
  have readPid_eq : readPid table (parts.getD 1 []) =
      joinRecord table (match parseUnsigned (parts.getD 1 []) 10 with
        | some pid => .ok (.pid (pid % 0x100000000))
        | none => .error .unreadablePid) := by
    unfold readPid
    cases parseUnsigned (parts.getD 1 []) 10 <;> rfl
  unfold readRecord partsSay
  dsimp only
  rw [readPid_eq, readBitness_eq, readField_eq, readEntry_eq, apply_ite (joinRecord table)]
  simp only [apply_ite (joinRecord table)]
  rfl

theorem joinRecord_partsSay (table : ProjectTable) (parts : List Text) :
    joinRecord table (partsSay api (!table.structures.isEmpty) parts) =
      joinRecord table (partsSay api true parts) := by
  unfold partsSay
  dsimp only
  rw [apply_ite (joinRecord table)]
  simp only [apply_ite (joinRecord table), joinRecord_fieldOf]

/-- A line adds its record to the table, or nothing. -/
theorem readLine_eq (table : ProjectTable) (line : Text) :
    readLine api table line = ((recordOf api line).map table.join).getD table := by
  unfold readLine recordOf meaning
  simp only [readRecord_eq]
  split_ifs
  · rfl
  · cases partsSay api true (splitEscaped (stripBreaks line)) <;> rfl

/-- A skipped line leaves the table alone. -/
theorem readLine_skipped {table : ProjectTable} {line : Text} (skipped : Skipped api table line) :
    readLine api table line = table := by
  obtain ⟨warning, reported⟩ := skipped
  unfold meaning at reported
  unfold readLine
  simp only [readRecord_eq, ← joinRecord_partsSay]
  split_ifs at reported ⊢ with blank
  rw [Option.some.inj reported]
  rfl

/-- The records of the lines that can be read, in order. -/
def records (lines : List Text) : List Record := lines.filterMap (recordOf api)

theorem foldl_readLine_records (lines : List Text) (table : ProjectTable) :
    lines.foldl (readLine api) table = (records api lines).foldl ProjectTable.join table := by
  induction lines generalizing table with
  | nil => rfl
  | cons line rest ih =>
      rw [List.foldl_cons, ih, readLine_eq, records, records, List.filterMap_cons]
      cases recordOf api line <;> rfl

/-- A file the loader accepts is the sum of its records. -/
theorem load_eq {text : Text} {table : ProjectTable} (loaded : load api (some text) = .ok table) :
    table = (records api (pieces '\n' text).tail).foldl ProjectTable.join {} := by
  rw [load] at loaded
  simp only [foldl_readLine_records] at loaded
  split_ifs at loaded
  · exact (Except.ok.inj loaded).symm
  · simp [fail] at loaded

end Read

def Record.pid? : Record → Option Nat
  | .pid value => some value
  | _ => none

def Record.process? : Record → Option WideText
  | .process value => some value
  | _ => none

def Record.bitness? : Record → Option Bitness
  | .bitness value => some value
  | _ => none

def Record.symbol? : Record → Option SavedSymbol
  | .symbol value => some value
  | _ => none

def Record.script? : Record → Option SavedScript
  | .script value => some value
  | _ => none

def Record.entry? : Record → Option AddressEntry
  | .entry value => some value
  | _ => none

/-- A list that every record extends on its own holds what the records add, in order. -/
theorem foldl_join_list {Item : Type} (part : ProjectTable → List Item)
    (item : Record → Option Item)
    (one : ∀ table record, part (ProjectTable.join table record) = part table ++ (item record).toList)
    (file : List Record) (table : ProjectTable) :
    part (file.foldl ProjectTable.join table) = part table ++ file.filterMap item := by
  induction file generalizing table with
  | nil => rw [List.foldl_nil, List.filterMap_nil, List.append_nil]
  | cons record rest ih =>
      rw [List.foldl_cons, ih, one, List.filterMap_cons, List.append_assoc]
      cases item record <;> rfl

theorem join_entries (table : ProjectTable) (record : Record) :
    (table.join record).entries = table.entries ++ record.entry?.toList := by
  cases record <;> first | rfl | exact (List.append_nil _).symm

theorem foldl_join_entries (file : List Record) (table : ProjectTable) :
    (file.foldl ProjectTable.join table).entries =
      table.entries ++ file.filterMap Record.entry? :=
  foldl_join_list (fun table => table.entries) Record.entry? join_entries file table

theorem join_symbols (table : ProjectTable) (record : Record) :
    (table.join record).symbols = table.symbols ++ record.symbol?.toList := by
  cases record <;> first | rfl | exact (List.append_nil _).symm

theorem foldl_join_symbols (file : List Record) (table : ProjectTable) :
    (file.foldl ProjectTable.join table).symbols =
      table.symbols ++ file.filterMap Record.symbol? :=
  foldl_join_list (fun table => table.symbols) Record.symbol? join_symbols file table

theorem join_scripts (table : ProjectTable) (record : Record) :
    (table.join record).scripts = table.scripts ++ record.script?.toList := by
  cases record <;> first | rfl | exact (List.append_nil _).symm

theorem foldl_join_scripts (file : List Record) (table : ProjectTable) :
    (file.foldl ProjectTable.join table).scripts =
      table.scripts ++ file.filterMap Record.script? :=
  foldl_join_list (fun table => table.scripts) Record.script? join_scripts file table

/-- A value that the last record of its kind sets. -/
theorem foldl_join_last {Item : Type} (part : ProjectTable → Item) (item : Record → Option Item)
    (one : ∀ table record, part (ProjectTable.join table record) = (item record).getD (part table))
    (file : List Record) (table : ProjectTable) :
    part (file.foldl ProjectTable.join table) =
      (file.filterMap item).getLast?.getD (part table) := by
  induction file generalizing table with
  | nil => rfl
  | cons record rest ih =>
      rw [List.foldl_cons, ih, one, List.filterMap_cons]
      cases item record with
      | none => rfl
      | some found =>
          rw [Option.getD_some, List.getLast?_cons]
          rfl

theorem join_lastPid (table : ProjectTable) (record : Record) :
    (table.join record).lastPid = record.pid?.getD table.lastPid := by
  cases record <;> rfl

theorem foldl_join_lastPid (file : List Record) (table : ProjectTable) :
    (file.foldl ProjectTable.join table).lastPid =
      (file.filterMap Record.pid?).getLast?.getD table.lastPid :=
  foldl_join_last (fun table => table.lastPid) Record.pid? join_lastPid file table

theorem join_lastProcessName (table : ProjectTable) (record : Record) :
    (table.join record).lastProcessName = record.process?.getD table.lastProcessName := by
  cases record <;> rfl

theorem foldl_join_lastProcessName (file : List Record) (table : ProjectTable) :
    (file.foldl ProjectTable.join table).lastProcessName =
      (file.filterMap Record.process?).getLast?.getD table.lastProcessName :=
  foldl_join_last (fun table => table.lastProcessName) Record.process? join_lastProcessName file table

theorem join_lastBitness (table : ProjectTable) (record : Record) :
    (table.join record).lastBitness = record.bitness?.getD table.lastBitness := by
  cases record <;> rfl

theorem foldl_join_lastBitness (file : List Record) (table : ProjectTable) :
    (file.foldl ProjectTable.join table).lastBitness =
      (file.filterMap Record.bitness?).getLast?.getD table.lastBitness :=
  foldl_join_last (fun table => table.lastBitness) Record.bitness? join_lastBitness file table

theorem parseUnsigned_lt {text : Text} {base value : Nat}
    (read : parseUnsigned text base = some value) : value < addressSpace := by
  unfold parseUnsigned at read
  simp only [] at read
  split_ifs at read <;> simp_all

section Entries

variable (api : Conversion)

theorem entryOf_id {parts : List Text} {entry : AddressEntry}
    (read : entryOf api parts = .ok (.entry entry)) : entry.id < addressSpace := by
  unfold entryOf at read
  split at read
  · rename_i id address number _
    split at read
    · rw [← Record.entry.inj (Except.ok.inj read)]
      exact parseUnsigned_lt number
    · simp at read
  · simp at read

theorem field_ne_entry (narrow_ : Prop) [Decidable narrow_] (field : StructureField)
    (entry : AddressEntry) :
    (if narrow_ then .error .fieldWithoutWidth else .ok (.field field) : Except Warning Record) ≠
      .ok (.entry entry) := by
  split_ifs <;> simp

theorem fieldOf_entry (below : Bool) (offset type length name : Text) (entry : AddressEntry) :
    fieldOf below offset type length name ≠ .ok (.entry entry) := by
  unfold fieldOf
  intro read
  split at read
  · simp at read
  · split at read
    · exact field_ne_entry _ _ _ read
    · simp at read

/-- The record is neither a field nor an entry. -/
def Record.Other (record : Record) : Prop :=
  (∀ field, record ≠ .field field) ∧ ∀ entry, record ≠ .entry entry

theorem bitnessOf_other {value : Text} {record : Record} (read : bitnessOf value = .ok record) :
    record.Other := by
  unfold bitnessOf at read
  split_ifs at read <;> cases read <;> exact ⟨fun _ => nofun, fun _ => nofun⟩

/-- The lines that fields and entries come from. -/
theorem partsSay_ok {below : Bool} {parts : List Text} {record : Record}
    (read : partsSay api below parts = .ok record) :
    record.Other ∨
      fieldOf below (parts.getD 1 []) (parts.getD 2 []) (parts.getD 3 []) (parts.getD 4 []) =
        .ok record ∨
      entryOf api parts = .ok record := by
  unfold partsSay at read
  dsimp only at read
  split at read
  · split at read <;> cases read
    exact .inl ⟨fun _ => nofun, fun _ => nofun⟩
  split at read
  · cases read
    exact .inl ⟨fun _ => nofun, fun _ => nofun⟩
  split at read
  · exact .inl (bitnessOf_other read)
  split at read
  · split at read <;> cases read
    exact .inl ⟨fun _ => nofun, fun _ => nofun⟩
  split at read
  · split at read <;> cases read
    exact .inl ⟨fun _ => nofun, fun _ => nofun⟩
  split at read
  · cases read
    exact .inl ⟨fun _ => nofun, fun _ => nofun⟩
  split at read
  · exact .inr (.inl read)
  split at read
  · exact .inr (.inr read)
  · cases read

theorem partsSay_entry {parts : List Text} {entry : AddressEntry}
    (read : partsSay api true parts = .ok (.entry entry)) :
    entryOf api parts = .ok (.entry entry) := by
  rcases partsSay_ok api read with other | isField | isEntry
  · exact absurd rfl (other.2 entry)
  · exact absurd isField (fieldOf_entry _ _ _ _ _ _)
  · exact isEntry

theorem recordOf_entry {line : Text} {entry : AddressEntry}
    (read : recordOf api line = some (.entry entry)) :
    entryOf api (splitEscaped (stripBreaks line)) = .ok (.entry entry) := by
  unfold recordOf meaning at read
  split at read
  · rename_i record said
    split_ifs at said
    rw [Option.some.inj read] at said
    exact partsSay_entry api (Option.some.inj said)
  · simp at read

/-- The ids of loaded rows are 64-bit numbers. -/
theorem load_ids {text : Text} {table : ProjectTable} (loaded : load api (some text) = .ok table) :
    ∀ entry ∈ table.entries, entry.id < addressSpace := by
  intro entry inTable
  rw [load_eq api loaded, foldl_join_entries, List.nil_append] at inTable
  obtain ⟨record, inFile, row⟩ := List.mem_filterMap.mp inTable
  obtain ⟨line, _, read⟩ := List.mem_filterMap.mp inFile
  cases record with
  | entry value =>
      rw [← Option.some.inj row]
      exact entryOf_id api (recordOf_entry api read)
  | _ => simp [Record.entry?] at row

end Entries

/-- Converts nothing. -/
def blankConversion : Conversion :=
  { multiByteToWideChar := fun _ => [], wideCharToMultiByte := fun _ => [] }

end PointerLab.ProjectStore
