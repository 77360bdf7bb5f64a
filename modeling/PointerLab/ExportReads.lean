import PointerLab.ExportResolver
import PointerLab.Routines

set_option autoImplicit false

/- The reads of `ExportResolver::exports` one at a time, in the order of the source. A target that
stands still while they are made answers them as it answers `exports`. -/
namespace PointerLab.ExportResolver

open Domain TargetView AutoAssembler OrderedMap

abbrev Reading (Reply : Type) := Routine TargetView Reply

/-- The loop of `readCString`. -/
def readingChunks (address : Nat) : (chunks : Nat) → Name → Reading Name
  | 0, _ => .done []
  | chunks + 1, text =>
      (Routine.ask fun view => view.readBytes (placed address text.length) 64).bind fun
        | .error _ => .done []
        | .ok bytes =>
            let part := bytes.takeWhile fun byte => byte != 0
            if bytes.isEmpty then .done []
            else if part.length < bytes.length then .done (text ++ part)
            else if bytes.length < 64 then .done []
            else readingChunks address chunks (text ++ bytes)

def readingCString (address : Nat) : Reading Name := readingChunks address (4096 / 64) []

/-- The reads before the loop over the names; the headers and each table are one read. -/
def readingTables (moduleBase : Nat) : Reading (Result (Option ExportTables)) :=
  (Routine.ask fun view => findExportDirectory view moduleBase).bind fun
    | none =>
        .done (fail ("The module at " ++ hexString moduleBase ++
          " has no readable export directory."))
    | some directory =>
        (Routine.ask fun view => readTable view (placed moduleBase directory.rva) 40).bind fun
          | none => .done (fail "Could not read the export directory.")
          | some dir =>
              match readScalar 4 dir 0x10, readScalar 4 dir 0x14, readScalar 4 dir 0x18,
                  readScalar 4 dir 0x1C, readScalar 4 dir 0x20, readScalar 4 dir 0x24 with
              | some ordinalBase, some functionCount, some nameCount, some functionsRva,
                  some namesRva, some ordinalsRva =>
                  if 100000 < nameCount ∨ 100000 < functionCount then
                    .done (fail "The export directory is implausible and was rejected.")
                  else if nameCount = 0 then .done (.ok none)
                  else
                    (Routine.ask fun view =>
                      readTable view (placed moduleBase namesRva) (nameCount * 4)).bind
                    fun nameRvas => (Routine.ask fun view =>
                      readTable view (placed moduleBase ordinalsRva) (nameCount * 2)).bind
                    fun ordinals => (Routine.ask fun view =>
                      readTable view (placed moduleBase functionsRva) (functionCount * 4)).bind
                    fun functions =>
                      match nameRvas, ordinals, functions with
                      | some nameRvas, some ordinals, some functions =>
                          .done (.ok (some ⟨directory, ordinalBase, functionCount, nameCount,
                            nameRvas, ordinals, functions⟩))
                      | _, _, _ => .done (fail "The export tables could not be read in full.")
              | _, _, _, _, _, _ => .done (fail "The export directory is truncated.")

/-- What the tables tell of one export: the RVA of its name, its ordinal and its own RVA. -/
structure ExportSlot where
  nameRva : Nat
  ordinal : Nat
  functionRva : Nat

def exportSlot (tables : ExportTables) (index : Nat) : Option ExportSlot := do
  let nameRva ← readScalar 4 tables.nameRvas (index * 4)
  let ordinalIndex ← readScalar 2 tables.ordinals (index * 2)
  guard (ordinalIndex < tables.functionCount)
  let functionRva ← readScalar 4 tables.functions (ordinalIndex * 4)
  guard (functionRva ≠ 0)
  pure ⟨nameRva, (ordinalIndex + tables.ordinalBase) % 2 ^ 16, functionRva⟩

/-- One round of the loop over the names: the name, and for a forwarder its string. -/
def readingExport (moduleBase : Nat) (tables : ExportTables) (index : Nat) :
    Reading (Option ExportEntry) :=
  match exportSlot tables index with
  | none => .done none
  | some ⟨nameRva, ordinal, functionRva⟩ =>
      (readingCString (placed moduleBase nameRva)).bind fun name =>
        if name = [] then .done none
        else if tables.directory.holds functionRva then
          (readingCString (placed moduleBase functionRva)).bind fun unresolvedForwarder =>
            .done (some { name, ordinal, unresolvedForwarder })
        else .done (some { name, ordinal, address := placed moduleBase functionRva })

def readingExports (moduleBase : Nat) (tables : ExportTables) :
    List Nat → Reading (List ExportEntry)
  | [] => .done []
  | index :: rest =>
      (readingExport moduleBase tables index).bind fun entry =>
        (readingExports moduleBase tables rest).bind fun later => .done (entry.toList ++ later)

/-- Everything between the two critical sections of `exports`: a failure, nothing where the module
has no names, or the entries to be kept. -/
def parsing (sort : List ExportEntry → List ExportEntry) (moduleBase : Nat) :
    Reading (Result (Option (List ExportEntry))) :=
  (readingTables moduleBase).bind fun
    | .error failure => .done (.error failure)
    | .ok none => .done (.ok none)
    | .ok (some tables) =>
        (readingExports moduleBase tables (List.range tables.nameCount)).bind fun result =>
          .done (.ok (some (sort result)))

/-- `std::sort` over the entries and over what they are made of: its comparison sees the names
only. -/
def Library.SortsBy (library : Library) (sort : List ExportEntry → List ExportEntry) : Prop :=
  ∀ (entry : NamedExport → ExportEntry) (named : List NamedExport),
    (∀ export_, (entry export_).name = export_.name) →
      sort (named.map entry) = (library.sort named).map entry

variable (view : TargetView)

theorem finish_readingChunks (address chunks : Nat) (text : Name) :
    (readingChunks address chunks text).finish view =
      (view, readChunks view address chunks text) := by
  induction chunks generalizing text with
  | zero => rfl
  | succ chunks ih =>
      rw [readingChunks, readChunks, Routine.finish_bind, Routine.finish_ask]
      cases view.readBytes (placed address text.length) 64 with
      | error failure => rfl
      | ok bytes =>
          dsimp only
          split
          · rfl
          · split
            · rfl
            · split
              · rfl
              · exact ih (text ++ bytes)

theorem finish_readingCString (address : Nat) :
    (readingCString address).finish view = (view, readCString view address) :=
  finish_readingChunks view address _ []

theorem finish_readingTables (moduleBase : Nat) :
    (readingTables moduleBase).finish view = (view, readTables view moduleBase) := by
  rw [readingTables, readTables, Routine.finish_bind, Routine.finish_ask]
  cases findExportDirectory view moduleBase with
  | none => rfl
  | some directory =>
      dsimp only
      rw [Routine.finish_bind, Routine.finish_ask]
      cases readTable view (placed moduleBase directory.rva) 40 with
      | none => rfl
      | some dir =>
          dsimp only
          obtain _ | ordinalBase := readScalar 4 dir 0x10
          · rfl
          obtain _ | functionCount := readScalar 4 dir 0x14
          · rfl
          obtain _ | nameCount := readScalar 4 dir 0x18
          · rfl
          obtain _ | functionsRva := readScalar 4 dir 0x1C
          · rfl
          obtain _ | namesRva := readScalar 4 dir 0x20
          · rfl
          obtain _ | ordinalsRva := readScalar 4 dir 0x24
          · rfl
          dsimp only
          by_cases implausible : 100000 < nameCount ∨ 100000 < functionCount
          · rw [if_pos implausible, if_pos implausible]
            rfl
          · rw [if_neg implausible, if_neg implausible]
            by_cases unnamed : nameCount = 0
            · rw [if_pos unnamed, if_pos unnamed]
              rfl
            · rw [if_neg unnamed, if_neg unnamed]
              simp only [Routine.finish_bind, Routine.finish_ask]
              obtain _ | nameRvas := readTable view (placed moduleBase namesRva) (nameCount * 4)
              · rfl
              obtain _ | ordinals := readTable view (placed moduleBase ordinalsRva) (nameCount * 2)
              · rfl
              obtain _ | functions :=
                readTable view (placed moduleBase functionsRva) (functionCount * 4)
              · rfl
              rfl

theorem readExport_eq (moduleBase : Nat) (tables : ExportTables) (index : Nat) :
    readExport view moduleBase tables index =
      (exportSlot tables index).bind fun slot =>
        if readCString view (placed moduleBase slot.nameRva) = [] then none
        else some ⟨readCString view (placed moduleBase slot.nameRva), slot.ordinal,
          slot.functionRva⟩ := by
  unfold readExport exportSlot
  cases readScalar 4 tables.nameRvas (index * 4) with
  | none => rfl
  | some nameRva =>
      cases readScalar 2 tables.ordinals (index * 2) with
      | none => rfl
      | some ordinalIndex =>
          dsimp only [Option.bind_eq_bind, Option.bind_some]
          by_cases listed : ordinalIndex < tables.functionCount
          · have goes : (guard (ordinalIndex < tables.functionCount) : Option Unit) = some () :=
              if_pos listed
            rw [goes]
            dsimp only [Option.bind_some]
            cases readScalar 4 tables.functions (ordinalIndex * 4) with
            | none => rfl
            | some functionRva =>
                dsimp only [Option.bind_some]
                by_cases zero : functionRva = 0
                · have stops : (guard (functionRva ≠ 0) : Option Unit) = none :=
                    if_neg (not_not.mpr zero)
                  rw [stops]
                  rfl
                · have nonzero : (guard (functionRva ≠ 0) : Option Unit) = some () := if_pos zero
                  rw [nonzero]
                  dsimp only [Option.bind_some]
                  by_cases unnamed : readCString view (placed moduleBase nameRva) = []
                  · have stops : (guard (readCString view (placed moduleBase nameRva) ≠ []) :
                        Option Unit) = none := if_neg (not_not.mpr unnamed)
                    rw [stops]
                    exact (if_pos unnamed).symm
                  · have named : (guard (readCString view (placed moduleBase nameRva) ≠ []) :
                        Option Unit) = some () := if_pos unnamed
                    rw [named]
                    exact (if_neg unnamed).symm
          · have stops : (guard (ordinalIndex < tables.functionCount) : Option Unit) = none :=
              if_neg listed
            rw [stops]
            rfl

theorem finish_readingExport (moduleBase : Nat) (tables : ExportTables) (index : Nat) :
    (readingExport moduleBase tables index).finish view =
      (view, (readExport view moduleBase tables index).map
        (entryOf view moduleBase tables.directory)) := by
  rw [readingExport, readExport_eq]
  cases exportSlot tables index with
  | none => rfl
  | some slot =>
      dsimp only
      rw [Routine.finish_bind, finish_readingCString, Option.bind_some]
      dsimp only
      by_cases unnamed : readCString view (placed moduleBase slot.nameRva) = []
      · rw [if_pos unnamed, if_pos unnamed]
        rfl
      · rw [if_neg unnamed, if_neg unnamed, Option.map_some, entryOf]
        by_cases forwards : tables.directory.holds slot.functionRva = true
        · rw [if_pos forwards, if_pos forwards, Routine.finish_bind, finish_readingCString]
          rfl
        · rw [if_neg forwards, if_neg forwards]
          rfl

theorem finish_readingExports (moduleBase : Nat) (tables : ExportTables) (indices : List Nat) :
    (readingExports moduleBase tables indices).finish view =
      (view, (indices.filterMap (readExport view moduleBase tables)).map
        (entryOf view moduleBase tables.directory)) := by
  induction indices with
  | nil => rfl
  | cons index rest ih =>
      rw [readingExports, Routine.finish_bind, finish_readingExport, Routine.finish_bind, ih]
      cases read : readExport view moduleBase tables index with
      | none => rw [List.filterMap_cons_none read]; rfl
      | some named => rw [List.filterMap_cons_some read]; rfl

/-- Left alone, the reads come to the entries of `exports`. -/
theorem finish_parsing {library : Library} {sort : List ExportEntry → List ExportEntry}
    (sorts : library.SortsBy sort) (moduleBase : Nat) :
    (parsing sort moduleBase).finish view =
      (view, (readTables view moduleBase).map fun tables =>
        tables.map (parsed view library moduleBase)) := by
  rw [parsing, Routine.finish_bind, finish_readingTables]
  cases readTables view moduleBase with
  | error failure => rfl
  | ok tables =>
      cases tables with
      | none => rfl
      | some tables =>
          dsimp only
          rw [Routine.finish_bind, finish_readingExports, sorts]
          · rfl
          · intro named
            unfold entryOf
            split <;> rfl

end PointerLab.ExportResolver
