import PointerLab.ProjectStoreText

set_option autoImplicit false

/- Loading what was saved gives the table back. The lines are compared through their
fields: each section of the file is a list of records, read by a fold. -/
namespace PointerLab.ProjectStore

open Domain Pieces

variable (api : Conversion)

/-- The wide text survives the conversion to UTF-8 and back, as valid UTF-16 without a
terminator inside does. -/
def Converts (text : WideText) : Prop := widen api (narrow api text) = text

structure FieldStorable (field : StructureField) : Prop where
  named : field.name ≠ []
  wide : field.size ≠ 0
  offset : IsPtrdiff field.offset
  length : field.length < addressSpace

structure ChainStorable (chain : PointerChain) : Prop where
  valid : chain.valid = true
  name : Converts api chain.moduleName
  moduleOffset : chain.moduleOffset < addressSpace
  offsets : ∀ offset ∈ chain.offsets, IsPtrdiff offset

structure EntryStorable (entry : AddressEntry) : Prop where
  id : entry.id < addressSpace
  address : entry.address < addressSpace
  resolved : entry.chain = none → entry.resolved = true
  chain : ∀ chain, entry.chain = some chain → ChainStorable api chain

/-- The tables the program builds. -/
structure Storable (table : ProjectTable) : Prop where
  lastPid : table.lastPid < 0x100000000
  lastProcessName : Converts api table.lastProcessName
  symbols : ∀ symbol ∈ table.symbols, symbol.name ≠ [] ∧ symbol.expression ≠ []
  scripts : ∀ script ∈ table.scripts, script.name ≠ []
  structures : ∀ structure_ ∈ table.structures,
    structure_.name ≠ [] ∧ ∀ field ∈ structure_.fields, FieldStorable field
  entries : ∀ entry ∈ table.entries, EntryStorable api entry

/-- What a chain keeps: not the place its module had when it was found. -/
def reloadedEntry (entry : AddressEntry) : AddressEntry :=
  { entry with
    chain := entry.chain.map fun chain => { chain with moduleBase := 0 }
    resolved := entry.chain.isNone }

/-- Structures numbered from one. -/
def renumbered (done : Nat) (structures : List Structure) : List Structure :=
  (structures.zipIdx done).map fun numbered => { numbered.1 with id := numbered.2 + 1 }

/-- The table that a save and a load leave. -/
def reloaded (table : ProjectTable) : ProjectTable :=
  { table with
    entries := table.entries.map reloadedEntry
    structures := renumbered 0 table.structures }

def symbolFields (symbol : SavedSymbol) : List Text :=
  ["symbol".toList, symbol.name, symbol.expression]

def scriptFields (script : SavedScript) : List Text :=
  ["script".toList, script.name, script.source]

def fieldFields (field : StructureField) : List Text :=
  ["field".toList, hex (toUnsigned field.offset), valueTypeName field.type, decimal field.length,
    field.name]

def structureFields (structure_ : Structure) : List (List Text) :=
  ["struct".toList, structure_.name] :: structure_.fields.map fieldFields

def entryFields (entry : AddressEntry) : List Text :=
  ["entry".toList, decimal entry.id, hex entry.address, valueTypeName entry.type,
    if entry.frozen then ['1'] else ['0'], entry.description, entry.group, entry.hotkey,
    bytesToHex entry.frozenValue false,
    match entry.chain with | some chain => narrow api chain.moduleName | none => [],
    match entry.chain with | some chain => hex chain.moduleOffset | none => hex 0,
    match entry.chain with | some chain => formatOffsets chain.offsets | none => []]

/-- The fields of the lines below the header. -/
def tableFields (table : ProjectTable) : List (List Text) :=
  [["pid".toList, decimal table.lastPid], ["process".toList, narrow api table.lastProcessName],
    ["bitness".toList, bitnessText table.lastBitness]] ++
  table.symbols.map symbolFields ++ table.scripts.map scriptFields ++
  table.structures.flatMap structureFields ++ table.entries.map (entryFields api)

@[simp] theorem escape_hex (value : Nat) : escape (hex value) = hex value :=
  escape_plain (hex_plain value)

@[simp] theorem escape_decimal (value : Nat) : escape (decimal value) = decimal value :=
  escape_plain (decimal_plain value)

@[simp] theorem escape_valueTypeName (type : ValueType) :
    escape (valueTypeName type) = valueTypeName type :=
  escape_plain (valueTypeName_plain type)

@[simp] theorem escape_formatOffsets (offsets : List Int) :
    escape (formatOffsets offsets) = formatOffsets offsets :=
  escape_plain (formatOffsets_plain offsets)

@[simp] theorem escape_bytesToHex (bytes : List UInt8) :
    escape (bytesToHex bytes false) = bytesToHex bytes false :=
  escape_plain fun c inside => plain_of_hexDigit (bytesToHex_digits bytes c inside)

@[simp] theorem escape_bitnessText (bitness : Bitness) :
    escape (bitnessText bitness) = bitnessText bitness := by
  cases bitness <;> decide

theorem fieldLine_eq (field : StructureField) :
    fieldLine field = record ((fieldFields field).map escape) := by
  have kind : escape "field".toList = "field".toList := by decide
  simp only [fieldLine, fieldFields, List.map_cons, List.map_nil, kind, escape_hex,
    escape_valueTypeName, escape_decimal]

theorem structureLines_eq (structure_ : Structure) :
    structureLines structure_ =
      (structureFields structure_).map fun fields => record (fields.map escape) := by
  have kind : escape "struct".toList = "struct".toList := by decide
  simp only [structureLines, structureFields, List.map_cons, List.map_nil, kind, List.map_map]
  congr 1
  exact List.map_congr_left fun field _ => fieldLine_eq field

theorem entryLine_eq (entry : AddressEntry) :
    entryLine api entry = record ((entryFields api entry).map escape) := by
  have kind : escape "entry".toList = "entry".toList := by decide
  have frozen : escape (if entry.frozen then ['1'] else ['0']) =
      if entry.frozen then ['1'] else ['0'] := by
    cases entry.frozen <;> decide
  have empty : escape [] = [] := rfl
  unfold entryLine entryFields
  cases entry.chain with
  | none =>
      simp only [List.map_cons, List.map_nil, kind, frozen, empty, escape_hex, escape_decimal,
        escape_valueTypeName, escape_bytesToHex]
  | some chain =>
      simp only [List.map_cons, List.map_nil, kind, frozen, escape_hex, escape_decimal,
        escape_valueTypeName, escape_bytesToHex, escape_formatOffsets]

theorem symbolLine_eq (symbol : SavedSymbol) :
    symbolLine symbol = record ((symbolFields symbol).map escape) := by
  have kind : escape "symbol".toList = "symbol".toList := by decide
  simp only [symbolLine, symbolFields, List.map_cons, List.map_nil, kind]

theorem scriptLine_eq (script : SavedScript) :
    scriptLine script = record ((scriptFields script).map escape) := by
  have kind : escape "script".toList = "script".toList := by decide
  simp only [scriptLine, scriptFields, List.map_cons, List.map_nil, kind]

/-- Every line of the file is a record of escaped fields. -/
theorem tableLines_eq (table : ProjectTable) :
    tableLines api table =
      "IRETABLE 3".toList :: (tableFields api table).map fun fields =>
        record (fields.map escape) := by
  have pid : escape "pid".toList = "pid".toList := by decide
  have process : escape "process".toList = "process".toList := by decide
  have bitness : escape "bitness".toList = "bitness".toList := by decide
  have each {Item : Type} (items : List Item) (line : Item → Text) (fields : Item → List Text)
      (same : ∀ item, line item = record ((fields item).map escape)) :
      items.map line = (items.map fields).map fun fields => record (fields.map escape) := by
    rw [List.map_map]
    exact List.map_congr_left fun item _ => same item
  have structures : table.structures.flatMap structureLines =
      (table.structures.flatMap structureFields).map fun fields => record (fields.map escape) := by
    rw [List.map_flatMap]
    exact List.flatMap_congr fun structure_ _ => structureLines_eq structure_
  simp only [tableLines, tableFields, structures, each _ _ _ symbolLine_eq,
    each _ _ _ scriptLine_eq, each _ _ _ (entryLine_eq api), List.map_append, List.map_cons,
    List.map_nil, pid, process, bitness, escape_decimal, escape_bitnessText, List.cons_append,
    List.nil_append]

/-- A line is read as its fields. -/
theorem readLine_record (table : ProjectTable) {kind : Text} {rest : List Text}
    (nonempty : kind ≠ []) :
    readLine api table (record ((kind :: rest).map escape)) =
      readRecord api table (kind :: rest) := by
  have whole : stripBreaks (record ((kind :: rest).map escape)) =
      record ((kind :: rest).map escape) := by
    have unbroken := record_unbroken (kind :: rest)
    generalize record ((kind :: rest).map escape) = line at unbroken ⊢
    rw [stripBreaks, List.dropWhile_eq_self_iff.mpr, List.reverse_reverse]
    intro longer breaks
    obtain ⟨line_, feed⟩ := unbroken _ (List.mem_reverse.mp (List.getElem_mem longer))
    simp only [isBreak, Bool.or_eq_true, beq_iff_eq] at breaks
    rcases breaks with same | same
    · exact feed same
    · exact line_ same
  have some_ : record ((kind :: rest).map escape) ≠ [] := by
    intro empty
    have split := splitEscaped_record (List.cons_ne_nil kind rest)
    rw [empty] at split
    exact nonempty (List.cons.inj split).1.symm
  simp only [readLine, whole, List.isEmpty_eq_false_iff.mpr some_, Bool.false_eq_true, ↓reduceIte,
    splitEscaped_record (List.cons_ne_nil kind rest)]

theorem readRecord_symbol (table : ProjectTable) {symbol : SavedSymbol}
    (storable : symbol.name ≠ [] ∧ symbol.expression ≠ []) :
    readRecord api table (symbolFields symbol) =
      { table with symbols := table.symbols ++ [symbol] } := by
  have named : symbol.name.isEmpty = false := List.isEmpty_eq_false_iff.mpr storable.1
  have expressed : symbol.expression.isEmpty = false := List.isEmpty_eq_false_iff.mpr storable.2
  have read : readRecord api table (symbolFields symbol) =
      readSymbol table symbol.name symbol.expression := rfl
  rw [read, readSymbol, named, expressed]
  rfl

theorem readRecord_script (table : ProjectTable) {script : SavedScript}
    (named : script.name ≠ []) :
    readRecord api table (scriptFields script) =
      { table with scripts := table.scripts ++ [script] } := by
  have some_ : script.name.isEmpty = false := List.isEmpty_eq_false_iff.mpr named
  have read : readRecord api table (scriptFields script) =
      readScript table script.name script.source := rfl
  rw [read, readScript, some_]
  rfl

theorem readRecord_field (table : ProjectTable) {done : List Structure} {last : Structure}
    {field : StructureField} (storable : FieldStorable field)
    (open_ : table.structures = done ++ [last]) :
    readRecord api table (fieldFields field) =
      { table with
        structures := done ++ [{ last with fields := last.fields ++ [field] }] } := by
  have read : readRecord api table (fieldFields field) =
      readField table (hex (toUnsigned field.offset)) (valueTypeName field.type)
        (decimal field.length) field.name := rfl
  have named : field.name.isEmpty = false := List.isEmpty_eq_false_iff.mpr storable.named
  have wide : ¬ StructureField.size ⟨field.offset, field.type, field.length, field.name⟩ = 0 :=
    storable.wide
  rw [read, readField, open_, List.getLast?_concat, List.dropLast_concat]
  simp only [parseUnsigned_hex (toUnsigned_lt field.offset), parseValueType_name,
    parseUnsigned_decimal storable.length, toSigned_toUnsigned storable.offset, named,
    Bool.false_eq_true, ↓reduceIte, wide]

theorem readChain_entryFields {entry : AddressEntry} (storable : EntryStorable api entry) :
    readChain api (entryFields api entry) =
      entry.chain.map fun chain => { chain with moduleBase := 0 } := by
  have parts : (entryFields api entry).length = 12 := rfl
  cases none_ : entry.chain with
  | none =>
      have empty : (entryFields api entry).getD 9 [] = [] := by simp [entryFields, none_]
      have zero : parseUnsigned ((entryFields api entry).getD 10 []) 16 = some 0 := by
        simp only [entryFields, none_, List.getD_cons_succ, List.getD_cons_zero]
        decide
      simp only [readChain, empty, zero, Option.getD_some, List.isEmpty_nil, Bool.not_true,
        bne_self_eq_false, Bool.or_self, Bool.and_false, Bool.false_eq_true, ↓reduceIte,
        Option.map_none]
  | some chain =>
      obtain ⟨valid, name, moduleOffset, offsets⟩ := storable.chain chain none_
      have named : (entryFields api entry).getD 9 [] = narrow api chain.moduleName := by
        simp [entryFields, none_]
      have base : (entryFields api entry).getD 10 [] = hex chain.moduleOffset := by
        simp [entryFields, none_]
      have listed : (entryFields api entry).getD 11 [] = formatOffsets chain.offsets := by
        simp [entryFields, none_]
      have rooted : (!(narrow api chain.moduleName).isEmpty || chain.moduleOffset != 0) = true := by
        by_cases zero : chain.moduleOffset = 0
        · have wide : chain.moduleName ≠ [] := by
            intro empty
            simp [PointerChain.valid, PointerChain.moduleRooted, empty, zero] at valid
          have narrowed : narrow api chain.moduleName ≠ [] := by
            intro empty
            rw [Converts, empty] at name
            exact wide name.symm
          simp [narrowed]
        · simp [zero]
      simp only [readChain, named, base, listed, parts, parseUnsigned_hex moduleOffset,
        parseOffsets_formatOffsets offsets, Option.getD_some, rooted, Option.map_some]
      rw [Converts] at name
      simp [name]

theorem readRecord_entry (table : ProjectTable) {entry : AddressEntry}
    (storable : EntryStorable api entry) :
    readRecord api table (entryFields api entry) =
      { table with entries := table.entries ++ [reloadedEntry entry] } := by
  have read : readRecord api table (entryFields api entry) =
      readEntry api table (entryFields api entry) := rfl
  have frozen : ((if entry.frozen then ['1'] else ['0']) == ['1']) = entry.frozen := by
    cases entry.frozen <;> decide
  have resolved : (entry.chain.map fun chain => { chain with moduleBase := 0 }).isNone =
      entry.chain.isNone := Option.isNone_map
  rw [read, readEntry, readChain_entryFields api storable]
  simp only [entryFields, List.getD_cons_succ, List.getD_cons_zero,
    parseUnsigned_decimal storable.id, parseUnsigned_hex storable.address, parseValueType_name,
    parseHexBytes_bytesToHex, frozen, resolved]
  rfl

theorem readRecord_struct (table : ProjectTable) {structure_ : Structure}
    (named : structure_.name ≠ []) :
    readRecord api table ["struct".toList, structure_.name] =
      { table with
        structures := table.structures ++
          [{ id := table.structures.length + 1, name := structure_.name }] } := by
  have some_ : structure_.name.isEmpty = false := List.isEmpty_eq_false_iff.mpr named
  have read : readRecord api table ["struct".toList, structure_.name] =
      readStruct table structure_.name := rfl
  rw [read, readStruct, some_]
  rfl

theorem readRecord_pid (table : ProjectTable) {pid : Nat} (fits : pid < 0x100000000) :
    readRecord api table ["pid".toList, decimal pid] = { table with lastPid := pid } := by
  have read : readRecord api table ["pid".toList, decimal pid] = readPid table (decimal pid) := rfl
  have wide : pid < addressSpace := Nat.lt_trans fits (by decide)
  rw [read, readPid, parseUnsigned_decimal wide]
  simp only [Nat.mod_eq_of_lt fits]

theorem readRecord_process (table : ProjectTable) {name : WideText} (converts : Converts api name) :
    readRecord api table ["process".toList, narrow api name] =
      { table with lastProcessName := name } := by
  have read : readRecord api table ["process".toList, narrow api name] =
      { table with lastProcessName := widen api (narrow api name) } := rfl
  rw [read, converts]

theorem readRecord_bitness (table : ProjectTable) (bitness : Bitness) :
    readRecord api table ["bitness".toList, bitnessText bitness] =
      { table with lastBitness := bitness } := by
  cases bitness <;> rfl

/-- A section of the file is read item by item. -/
theorem foldl_readRecord {Item : Type} {fields : Item → List Text}
    (grow : ProjectTable → List Item → ProjectTable) {items : List Item}
    (empty : ∀ table, grow table [] = table)
    (join : ∀ table first later, grow (grow table first) later = grow table (first ++ later))
    (one : ∀ table, ∀ item ∈ items, readRecord api table (fields item) = grow table [item])
    (table : ProjectTable) :
    (items.map fields).foldl (readRecord api) table = grow table items := by
  induction items generalizing table with
  | nil => exact (empty table).symm
  | cons item rest ih =>
      rw [List.map_cons, List.foldl_cons, one table item List.mem_cons_self,
        ih fun table item inRest => one table item (List.mem_cons_of_mem _ inRest), join,
        List.singleton_append]

theorem foldl_symbols {symbols : List SavedSymbol}
    (storable : ∀ symbol ∈ symbols, symbol.name ≠ [] ∧ symbol.expression ≠ [])
    (table : ProjectTable) :
    (symbols.map symbolFields).foldl (readRecord api) table =
      { table with symbols := table.symbols ++ symbols } :=
  foldl_readRecord api (fun table symbols =>
      { table with symbols := table.symbols ++ symbols })
    (fun _ => by simp only [List.append_nil]) (fun _ _ _ => by simp only [List.append_assoc])
    (fun table symbol inside => readRecord_symbol api table (storable symbol inside)) table

theorem foldl_scripts {scripts : List SavedScript}
    (storable : ∀ script ∈ scripts, script.name ≠ []) (table : ProjectTable) :
    (scripts.map scriptFields).foldl (readRecord api) table =
      { table with scripts := table.scripts ++ scripts } :=
  foldl_readRecord api (fun table scripts =>
      { table with scripts := table.scripts ++ scripts })
    (fun _ => by simp only [List.append_nil]) (fun _ _ _ => by simp only [List.append_assoc])
    (fun table script inside => readRecord_script api table (storable script inside)) table

theorem foldl_entries {entries : List AddressEntry}
    (storable : ∀ entry ∈ entries, EntryStorable api entry) (table : ProjectTable) :
    (entries.map (entryFields api)).foldl (readRecord api) table =
      { table with entries := table.entries ++ entries.map reloadedEntry } :=
  foldl_readRecord api (fun table entries =>
      { table with entries := table.entries ++ entries.map reloadedEntry })
    (fun _ => by simp only [List.map_nil, List.append_nil])
    (fun _ _ _ => by simp only [List.map_append, List.append_assoc])
    (fun table entry inside => readRecord_entry api table (storable entry inside)) table

/-- The fields below a structure all land in it. -/
theorem foldl_fields {fields : List StructureField} {done : List Structure}
    (storable : ∀ field ∈ fields, FieldStorable field) (last : Structure) (table : ProjectTable)
    (open_ : table.structures = done ++ [last]) :
    (fields.map fieldFields).foldl (readRecord api) table =
      { table with
        structures := done ++ [{ last with fields := last.fields ++ fields }] } := by
  induction fields generalizing last table with
  | nil =>
      simp only [List.map_nil, List.foldl_nil, List.append_nil]
      rw [← open_]
  | cons field rest ih =>
      have first := storable field List.mem_cons_self
      rw [List.map_cons, List.foldl_cons, readRecord_field api table first open_,
        ih (fun field inRest => storable field (List.mem_cons_of_mem _ inRest)) _ _ rfl]
      simp only [List.append_assoc, List.singleton_append]

/-- Structures are numbered in the order they are read. -/
theorem foldl_structures {structures : List Structure}
    (storable : ∀ structure_ ∈ structures,
      structure_.name ≠ [] ∧ ∀ field ∈ structure_.fields, FieldStorable field)
    (table : ProjectTable) :
    (structures.flatMap structureFields).foldl (readRecord api) table =
      { table with
        structures := table.structures ++ renumbered table.structures.length structures } := by
  induction structures generalizing table with
  | nil => simp only [List.flatMap_nil, List.foldl_nil, renumbered, List.zipIdx_nil, List.map_nil,
      List.append_nil]
  | cons structure_ rest ih =>
      obtain ⟨named, fields⟩ := storable structure_ List.mem_cons_self
      rw [List.flatMap_cons, structureFields, List.cons_append, List.foldl_cons, List.foldl_append,
        readRecord_struct api table named, foldl_fields api fields _ _ rfl,
        ih fun structure_ inRest => storable structure_ (List.mem_cons_of_mem _ inRest)]
      simp only [renumbered, List.zipIdx_cons, List.map_cons, List.append_assoc,
        List.singleton_append, List.nil_append, List.length_append, List.length_cons,
        List.length_nil, Nat.zero_add]

/-- The records of the whole file. -/
theorem foldl_table {table : ProjectTable} (storable : Storable api table) :
    (tableFields api table).foldl (readRecord api) {} = reloaded table := by
  rw [tableFields, List.foldl_append, List.foldl_append, List.foldl_append, List.foldl_append,
    List.foldl_cons, List.foldl_cons, List.foldl_cons, List.foldl_nil,
    readRecord_pid api _ storable.lastPid, readRecord_process api _ storable.lastProcessName,
    readRecord_bitness, foldl_symbols api storable.symbols, foldl_scripts api storable.scripts,
    foldl_structures api storable.structures, foldl_entries api storable.entries]
  rfl

/-- Every record starts with its kind. -/
theorem kind_of_tableFields {table : ProjectTable} {fields : List Text}
    (inside : fields ∈ tableFields api table) : ∃ kind rest, fields = kind :: rest ∧ kind ≠ [] := by
  simp only [tableFields, List.mem_append, List.mem_cons, List.not_mem_nil, or_false, List.mem_map,
    List.mem_flatMap, structureFields] at inside
  rcases inside with ((((rfl | rfl | rfl) | ⟨_, _, rfl⟩) | ⟨_, _, rfl⟩) |
    ⟨_, _, rfl | ⟨_, _, rfl⟩⟩) | ⟨_, _, rfl⟩ <;> exact ⟨_, _, rfl, by decide⟩

theorem foldl_readLine {records : List (List Text)}
    (kinds : ∀ fields ∈ records, ∃ kind rest, fields = kind :: rest ∧ kind ≠ [])
    (table : ProjectTable) :
    (records.map fun fields => record (fields.map escape)).foldl (readLine api) table =
      records.foldl (readRecord api) table := by
  induction records generalizing table with
  | nil => rfl
  | cons fields rest ih =>
      obtain ⟨kind, later, rfl, nonempty⟩ := kinds fields List.mem_cons_self
      rw [List.map_cons, List.foldl_cons, List.foldl_cons, readLine_record api table nonempty,
        ih fun fields inRest => kinds fields (List.mem_cons_of_mem _ inRest)]

theorem tableLines_unbroken (table : ProjectTable) : ∀ line ∈ tableLines api table, '\n' ∉ line := by
  rw [tableLines_eq]
  intro line inside feed
  rcases List.mem_cons.mp inside with rfl | inside
  · exact absurd feed (by decide)
  · obtain ⟨fields, _, rfl⟩ := List.mem_map.mp inside
    exact (record_unbroken fields _ feed).1 rfl

/-- A file that was written is read record by record. -/
theorem load_written (table : ProjectTable) :
    load api (some (writeTable api table)) =
      .ok ((tableFields api table).foldl (readRecord api) {}) := by
  have lines : pieces '\n' (writeTable api table) = tableLines api table :=
    pieces_lines (tableLines_unbroken api table)
  have header : stripBreaks (stripBom "IRETABLE 3".toList) ∈ knownHeaders := by decide
  have records := @foldl_readLine api (tableFields api table)
    (fun _ => kind_of_tableFields api) {}
  simp only [load, lines]
  rw [tableLines_eq, List.headD_cons, List.tail_cons, if_pos header, records]

/-- A project that is saved and loaded comes back as it was, its structures renumbered,
its chains without the place of their module and still to be resolved. -/
theorem load_writeTable {table : ProjectTable} (storable : Storable api table) :
    load api (some (writeTable api table)) = .ok (reloaded table) := by
  rw [load_written, foldl_table api storable]

/-- The conversions of the system on ASCII. -/
def asciiConversion : Conversion where
  multiByteToWideChar text := text.map fun c => UInt16.ofNat c.toNat
  wideCharToMultiByte text := text.map fun unit => Char.ofNat unit.toNat

/-- A chain with an offset below its pointer, and texts of what `escape` escapes. -/
def awkwardTable : ProjectTable where
  lastPid := 4242
  lastProcessName := "a|b.exe".toList.map fun c => UInt16.ofNat c.toNat
  lastBitness := .x86
  entries :=
    [{ id := 0xFFFFFFFFFFFFFFFF, address := 0x7FF000, frozenValue := [0x01, 0xAB], frozen := true,
       description := "a|b\\c\r\n".toList, hotkey := "|".toList, resolved := false,
       chain := some { moduleName := [0x67], moduleOffset := 0x10, offsets := [-8, 0x20],
                       moduleBase := 0x400000 } },
     { id := 7, address := 0, group := "\n".toList }]
  symbols := [{ name := "hp".toList, expression := "[game+10]|8".toList }]
  scripts := [{ name := "s".toList, source := "[ENABLE]\r\n\\".toList }]
  structures :=
    [{ id := 9, name := "first".toList },
     { id := 3, name := "second|".toList, fields := [{ offset := -4, name := "field".toList }] }]

theorem load_writeTable_awkward :
    Storable asciiConversion awkwardTable ∧
      load asciiConversion (some (writeTable asciiConversion awkwardTable)) =
        .ok (reloaded awkwardTable) := by
  have storable : Storable asciiConversion awkwardTable := by
    refine ⟨by decide, by unfold Converts; decide, by decide, by decide, ?_, ?_⟩
    · intro structure_ inside
      rcases List.mem_cons.mp inside with rfl | inside
      · exact ⟨by decide, fun _ none_ => absurd none_ List.not_mem_nil⟩
      · obtain rfl := List.mem_singleton.mp inside
        refine ⟨by decide, fun field inField => ?_⟩
        obtain rfl := List.mem_singleton.mp inField
        exact ⟨by decide, by decide, by unfold IsPtrdiff; decide, by decide⟩
    · intro entry inside
      rcases List.mem_cons.mp inside with rfl | inside
      · refine ⟨by decide, by decide, by decide, fun chain same => ?_⟩
        obtain rfl := Option.some.inj same
        exact ⟨by decide, by unfold Converts; decide, by decide, by unfold IsPtrdiff; decide⟩
      · obtain rfl := List.mem_singleton.mp inside
        exact ⟨by decide, by decide, fun _ => rfl, fun _ same => nomatch same⟩
  exact ⟨storable, load_writeTable asciiConversion storable⟩

end PointerLab.ProjectStore
