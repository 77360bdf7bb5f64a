import PointerLab.ProjectStoreLines
import PointerLab.ProjectStoreText
import Mathlib.Data.List.Induction

set_option autoImplicit false

/- What is left of a project file when one of its lines is damaged. -/
namespace PointerLab.ProjectStore

open Domain Digits Pieces

/-- A table with one more line, which may say nothing. -/
def ProjectTable.joinLine (table : ProjectTable) (line : Option Record) : ProjectTable :=
  (line.map table.join).getD table

/-- A structure of a file: the line of its record, and its fields with theirs. -/
structure Section where
  line : Nat
  name : Text
  fields : List (Nat × StructureField)
  deriving DecidableEq, Repr

def Section.shape (section_ : Section) : Text × List StructureField :=
  (section_.name, section_.fields.map (·.2))

def Structure.shape (structure_ : Structure) : Text × List StructureField :=
  (structure_.name, structure_.fields)

/-- The name of a structure that `count` others precede. -/
def structureName (count : Nat) (name : Text) : Text :=
  if name.isEmpty then "Structure ".toList ++ decimal (count + 1) else name

/-- The fields up to the next structure; the lines are numbered from `number`. -/
def fieldsFrom (number : Nat) : List (Option Record) → List (Nat × StructureField)
  | [] => []
  | some (.struct _) :: _ => []
  | some (.field field) :: rest => (number, field) :: fieldsFrom (number + 1) rest
  | _ :: rest => fieldsFrom (number + 1) rest

/-- The structures, each with the fields below it, when `count` others precede. -/
def sectionsFrom (count number : Nat) : List (Option Record) → List Section
  | [] => []
  | some (.struct name) :: rest =>
      { line := number, name := structureName count name, fields := fieldsFrom (number + 1) rest } ::
        sectionsFrom (count + 1) (number + 1) rest
  | _ :: rest => sectionsFrom count (number + 1) rest

/-- The structures a file describes. -/
def layout (lines : List (Option Record)) : List Section := sectionsFrom 0 0 lines

/-- A layout without what one line adds to it. -/
def without (number : Nat) (sections : List Section) : List Section :=
  (sections.filter (·.line != number)).map fun section_ =>
    { section_ with fields := section_.fields.filter (·.1 != number) }

/-- More fields for the last of some structures. -/
def extend {Field : Type} (sections : List (Text × List Field)) (fields : List Field) :
    List (Text × List Field) :=
  match sections.getLast? with
  | none => []
  | some last => sections.dropLast ++ [(last.1, last.2 ++ fields)]

section Extend

variable {Field : Type}

@[simp] theorem extend_nil (fields : List Field) : extend [] fields = [] := rfl

@[simp] theorem extend_concat (sections : List (Text × List Field)) (last : Text × List Field)
    (fields : List Field) :
    extend (sections ++ [last]) fields = sections ++ [(last.1, last.2 ++ fields)] := by
  rw [extend, List.getLast?_concat, List.dropLast_concat]

theorem extend_none (sections : List (Text × List Field)) : extend sections [] = sections := by
  cases sections using List.reverseRecOn with
  | nil => rfl
  | append_singleton sections last => rw [extend_concat, List.append_nil]

theorem extend_extend (sections : List (Text × List Field)) (first second : List Field) :
    extend (extend sections first) second = extend sections (first ++ second) := by
  cases sections using List.reverseRecOn with
  | nil => rfl
  | append_singleton sections last => simp only [extend_concat, List.append_assoc]

theorem extend_length (sections : List (Text × List Field)) (fields : List Field) :
    (extend sections fields).length = sections.length := by
  cases sections using List.reverseRecOn with
  | nil => rfl
  | append_singleton sections last => simp only [extend_concat, List.length_append,
      List.length_singleton]

/-- Fields are only added unseen where there are none, or nothing to add them to. -/
theorem extend_eq_self (sections : List (Text × List Field)) (fields : List Field) :
    extend sections fields = sections ↔ sections = [] ∨ fields = [] := by
  cases sections using List.reverseRecOn with
  | nil => simp
  | append_singleton sections last =>
      rw [extend_concat, List.append_cancel_left_eq, List.singleton_inj, Prod.ext_iff]
      simp

end Extend

theorem attach_shape (structures : List Structure) (field : StructureField) :
    (attach structures field).map Structure.shape =
      extend (structures.map Structure.shape) [field] := by
  cases structures using List.reverseRecOn with
  | nil => rfl
  | append_singleton structures last =>
      rw [attach, List.getLast?_concat, List.dropLast_concat, List.map_append, List.map_append,
        List.map_singleton, List.map_singleton, extend_concat]
      rfl

theorem attach_length (structures : List Structure) (field : StructureField) :
    (attach structures field).length = structures.length := by
  cases structures using List.reverseRecOn with
  | nil => rfl
  | append_singleton structures last =>
      rw [attach, List.getLast?_concat, List.dropLast_concat, List.length_append,
        List.length_append, List.length_singleton, List.length_singleton]

/-- The structures of a table after more lines: the last one grows until a new one starts. -/
theorem foldl_joinLine_shape (lines : List (Option Record)) (table : ProjectTable) (number : Nat) :
    (lines.foldl ProjectTable.joinLine table).structures.map Structure.shape =
      extend (table.structures.map Structure.shape) ((fieldsFrom number lines).map (·.2)) ++
        (sectionsFrom table.structures.length number lines).map Section.shape := by
  induction lines generalizing table number with
  | nil => rw [List.foldl_nil, fieldsFrom, List.map_nil, extend_none, sectionsFrom, List.map_nil,
      List.append_nil]
  | cons line rest ih =>
      rw [List.foldl_cons, ih _ (number + 1)]
      cases line with
      | none => rfl
      | some record =>
          cases record with
          | struct name =>
              have grown : (table.joinLine (some (.struct name))).structures = table.structures ++
                  [{ id := table.structures.length + 1
                     name := structureName table.structures.length name }] := rfl
              rw [grown, fieldsFrom, sectionsFrom, List.map_nil, extend_none, List.map_append,
                List.map_singleton, extend_concat, List.length_append, List.length_singleton,
                List.map_cons, List.append_assoc, List.singleton_append]
              rfl
          | field field =>
              have grown : (table.joinLine (some (.field field))).structures =
                  attach table.structures field := rfl
              rw [grown, fieldsFrom, sectionsFrom, attach_shape, attach_length, extend_extend,
                List.map_cons, List.singleton_append]
              exact nofun
          | pid | process | bitness | symbol | script | entry => rfl

/-- More fields for the last section. -/
def extendSections (sections : List Section) (fields : List (Nat × StructureField)) :
    List Section :=
  match sections.getLast? with
  | none => []
  | some last => sections.dropLast ++ [{ last with fields := last.fields ++ fields }]

theorem extendSections_concat (sections : List Section) (last : Section)
    (fields : List (Nat × StructureField)) :
    extendSections (sections ++ [last]) fields =
      sections ++ [{ last with fields := last.fields ++ fields }] := by
  rw [extendSections, List.getLast?_concat, List.dropLast_concat]

theorem extendSections_none (sections : List Section) : extendSections sections [] = sections := by
  cases sections using List.reverseRecOn with
  | nil => rfl
  | append_singleton sections last => rw [extendSections_concat, List.append_nil]

theorem extendSections_shape (sections : List Section) (fields : List (Nat × StructureField)) :
    (extendSections sections fields).map Section.shape =
      extend (sections.map Section.shape) (fields.map (·.2)) := by
  cases sections using List.reverseRecOn with
  | nil => rfl
  | append_singleton sections last =>
      rw [extendSections_concat, List.map_append, List.map_append, List.map_singleton,
        List.map_singleton, extend_concat, Section.shape, List.map_append]
      rfl

def isStruct : Option Record → Bool
  | some (.struct _) => true
  | _ => false

/-- What a line that starts no structure does to the walk over the lines. -/
theorem fieldsFrom_cons {line : Option Record} (other : isStruct line = false) (number : Nat)
    (rest : List (Option Record)) :
    fieldsFrom number (line :: rest) =
      (match line with | some (.field field) => [(number, field)] | _ => []) ++
        fieldsFrom (number + 1) rest := by
  cases line with
  | none => rfl
  | some record =>
      cases record with
      | struct name => exact nomatch other
      | field | pid | process | bitness | symbol | script | entry => rfl

theorem sectionsFrom_cons {line : Option Record} (other : isStruct line = false)
    (count number : Nat) (rest : List (Option Record)) :
    sectionsFrom count number (line :: rest) = sectionsFrom count (number + 1) rest := by
  cases line with
  | none => rfl
  | some record =>
      cases record with
      | struct name => exact nomatch other
      | field | pid | process | bitness | symbol | script | entry => rfl

theorem sectionsFrom_eq_nil {lines : List (Option Record)} (count number : Nat) :
    sectionsFrom count number lines = [] ↔ ∀ line ∈ lines, isStruct line = false := by
  induction lines generalizing count number with
  | nil => simp [sectionsFrom]
  | cons line rest ih =>
      cases other : isStruct line with
      | false => simp [sectionsFrom_cons other, ih, other]
      | true =>
          have some_ : sectionsFrom count number (line :: rest) ≠ [] := by
            unfold isStruct at other
            split at other
            · exact List.cons_ne_nil _ _
            · exact nomatch other
          simp [some_, other]

theorem fieldsFrom_append (before after : List (Option Record)) (number : Nat) :
    fieldsFrom number (before ++ after) =
      if sectionsFrom 0 0 before = [] then
        fieldsFrom number before ++ fieldsFrom (number + before.length) after
      else fieldsFrom number before := by
  induction before generalizing number with
  | nil => rfl
  | cons line rest ih =>
      cases other : isStruct line with
      | false =>
          have same : sectionsFrom 0 0 (line :: rest) = [] ↔ sectionsFrom 0 0 rest = [] := by
            rw [sectionsFrom_eq_nil, sectionsFrom_eq_nil]
            simp [other]
          rw [List.cons_append, fieldsFrom_cons other, fieldsFrom_cons other, ih,
            if_congr same rfl rfl, List.length_cons, Nat.add_right_comm, Nat.add_assoc]
          by_cases none_ : sectionsFrom 0 0 rest = []
          · rw [if_pos none_, if_pos none_, List.append_assoc]
          · rw [if_neg none_, if_neg none_]
      | true =>
          unfold isStruct at other
          split at other
          · rfl
          · exact nomatch other

theorem extendSections_cons (first : Section) (rest : List Section)
    (fields : List (Nat × StructureField)) :
    extendSections (first :: rest) fields =
      if rest = [] then [{ first with fields := first.fields ++ fields }]
      else first :: extendSections rest fields := by
  cases rest using List.reverseRecOn with
  | nil => rfl
  | append_singleton rest last =>
      rw [if_neg (by simp), extendSections_concat, ← List.cons_append, extendSections_concat,
        List.cons_append]

/-- What a file describes, cut in two: the fields below the cut go to the last structure
above it. -/
theorem sectionsFrom_append (before after : List (Option Record)) (count number : Nat) :
    sectionsFrom count number (before ++ after) =
      extendSections (sectionsFrom count number before)
        (fieldsFrom (number + before.length) after) ++
      sectionsFrom (count + (sectionsFrom count number before).length) (number + before.length)
        after := by
  induction before generalizing count number with
  | nil => rfl
  | cons line rest ih =>
      have further : number + (line :: rest).length = number + 1 + rest.length := by
        rw [List.length_cons, Nat.add_right_comm, Nat.add_assoc]
      cases other : isStruct line with
      | false =>
          rw [List.cons_append, sectionsFrom_cons other, sectionsFrom_cons other, ih, further]
      | true =>
          unfold isStruct at other
          split at other
          · rename_i name
            have first (lines : List (Option Record)) :
                sectionsFrom count number (some (.struct name) :: lines) =
                  { line := number, name := structureName count name,
                    fields := fieldsFrom (number + 1) lines } ::
                  sectionsFrom (count + 1) (number + 1) lines := rfl
            have empty : sectionsFrom 0 0 rest = [] ↔
                sectionsFrom (count + 1) (number + 1) rest = [] := by
              rw [sectionsFrom_eq_nil, sectionsFrom_eq_nil]
            rw [List.cons_append, first, first, further, extendSections_cons, ih,
              fieldsFrom_append, if_congr empty rfl rfl, List.length_cons, Nat.add_right_comm count,
              Nat.add_assoc count]
            split
            · rename_i none_
              rw [none_]
              rfl
            · rfl
          · exact nomatch other

theorem fieldsFrom_lines {lines : List (Option Record)} {number : Nat}
    {field : Nat × StructureField} (present : field ∈ fieldsFrom number lines) :
    number ≤ field.1 ∧ field.1 < number + lines.length := by
  induction lines generalizing number with
  | nil => exact absurd present List.not_mem_nil
  | cons line rest ih =>
      rw [List.length_cons]
      cases other : isStruct line with
      | false =>
          rw [fieldsFrom_cons other, List.mem_append] at present
          cases present with
          | inl here =>
              split at here
              · rw [List.mem_singleton.mp here]
                omega
              · exact absurd here List.not_mem_nil
          | inr later =>
              have bounds := ih later
              omega
      | true =>
          unfold isStruct at other
          split at other
          · exact absurd present List.not_mem_nil
          · exact nomatch other

theorem sectionsFrom_lines {lines : List (Option Record)} {count number : Nat}
    {section_ : Section} (present : section_ ∈ sectionsFrom count number lines) :
    (number ≤ section_.line ∧ section_.line < number + lines.length) ∧
      ∀ field ∈ section_.fields, number ≤ field.1 ∧ field.1 < number + lines.length := by
  induction lines generalizing count number with
  | nil => exact absurd present List.not_mem_nil
  | cons line rest ih =>
      rw [List.length_cons]
      have below (later : section_ ∈ sectionsFrom count (number + 1) rest ∨
          section_ ∈ sectionsFrom (count + 1) (number + 1) rest) :
          (number ≤ section_.line ∧ section_.line < number + (rest.length + 1)) ∧
            ∀ field ∈ section_.fields,
              number ≤ field.1 ∧ field.1 < number + (rest.length + 1) := by
        have bounds := later.elim ih ih
        refine ⟨by omega, ?_⟩
        intro field inFields
        have more := bounds.2 field inFields
        omega
      cases other : isStruct line with
      | false =>
          rw [sectionsFrom_cons other] at present
          exact below (.inl present)
      | true =>
          unfold isStruct at other
          split at other
          · cases List.mem_cons.mp present with
            | inl first =>
                rw [first]
                refine ⟨by dsimp only; omega, ?_⟩
                intro field inFields
                have bounds := fieldsFrom_lines inFields
                omega
            | inr later => exact below (.inr later)
          · exact nomatch other

/-- The sections have nothing on the line. -/
def Off (number : Nat) (sections : List Section) : Prop :=
  ∀ section_ ∈ sections, section_.line ≠ number ∧ ∀ field ∈ section_.fields, field.1 ≠ number

theorem without_append (number : Nat) (first second : List Section) :
    without number (first ++ second) = without number first ++ without number second := by
  rw [without, List.filter_append, List.map_append]
  rfl

theorem filter_off {number : Nat} {fields : List (Nat × StructureField)}
    (off : ∀ field ∈ fields, field.1 ≠ number) : fields.filter (·.1 != number) = fields := by
  rw [List.filter_eq_self]
  intro field inFields
  rw [bne_iff_ne]
  exact off field inFields

theorem without_off {number : Nat} {sections : List Section} (off : Off number sections) :
    without number sections = sections := by
  rw [without, List.filter_eq_self.mpr]
  · apply (List.map_congr_left ?_).trans (List.map_id _)
    intro section_ inSections
    rw [filter_off (off section_ inSections).2]
    rfl
  · intro section_ inSections
    rw [bne_iff_ne]
    exact (off section_ inSections).1

theorem without_extend {number : Nat} {sections : List Section} (off : Off number sections)
    (fields : List (Nat × StructureField)) :
    without number (extendSections sections fields) =
      extendSections sections (fields.filter (·.1 != number)) := by
  cases sections using List.reverseRecOn with
  | nil => rfl
  | append_singleton sections last =>
      have first : Off number sections := fun section_ inSections =>
        off section_ (List.mem_append_left _ inSections)
      obtain ⟨line, own⟩ := off last (List.mem_append_right _ List.mem_cons_self)
      rw [extendSections_concat, extendSections_concat, without_append, without_off first]
      simp [without, line, filter_off own]

/-- What is left of a layout without one of its lines. -/
theorem without_layout (before after : List (Option Record)) (line : Option Record) :
    without before.length (layout (before ++ line :: after)) =
      if isStruct line = true then
        sectionsFrom 0 0 before ++
          sectionsFrom ((sectionsFrom 0 0 before).length + 1) (before.length + 1) after
      else
        extendSections (sectionsFrom 0 0 before) (fieldsFrom (before.length + 1) after) ++
          sectionsFrom (sectionsFrom 0 0 before).length (before.length + 1) after := by
  have above : Off before.length (sectionsFrom 0 0 before) := by
    intro section_ inSections
    obtain ⟨line_, fields⟩ := sectionsFrom_lines inSections
    refine ⟨by omega, ?_⟩
    intro field inFields
    have bounds := fields field inFields
    omega
  have below (count : Nat) : Off before.length (sectionsFrom count (before.length + 1) after) := by
    intro section_ inSections
    obtain ⟨line_, fields⟩ := sectionsFrom_lines inSections
    refine ⟨by omega, ?_⟩
    intro field inFields
    have bounds := fields field inFields
    omega
  have later : (fieldsFrom (before.length + 1) after).filter (·.1 != before.length) =
      fieldsFrom (before.length + 1) after := by
    apply filter_off
    intro field inFields
    have bounds := fieldsFrom_lines inFields
    omega
  rw [layout, sectionsFrom_append, Nat.zero_add, Nat.zero_add, without_append,
    without_extend above]
  cases kind : isStruct line with
  | false =>
      rw [if_neg nofun, sectionsFrom_cons kind, without_off (below _), fieldsFrom_cons kind,
        List.filter_append, later]
      congr 2
      split
      · simp
      · rfl
  | true =>
      unfold isStruct at kind
      split at kind
      · rename_i name
        have gone : without before.length (sectionsFrom (sectionsFrom 0 0 before).length
            before.length (some (.struct name) :: after)) =
              without before.length (sectionsFrom ((sectionsFrom 0 0 before).length + 1)
                (before.length + 1) after) := by
          simp [without, sectionsFrom]
        rw [if_pos rfl, gone, without_off (below _), fieldsFrom, List.filter_nil,
          extendSections_none]
      · exact nomatch kind

theorem decimal_inj {first second : Nat} (same : decimal first = decimal second) :
    first = second := by
  have number := congrArg (number 10) same
  rwa [decimal, decimal, number_toDigits (by decide) (by decide),
    number_toDigits (by decide) (by decide)] at number

/-- A structure's name depends on how many precede it when it has none of its own. -/
theorem structureName_moved (count : Nat) (name : Text) :
    structureName count name = structureName (count + 1) name ↔ name ≠ [] := by
  unfold structureName
  cases name with
  | nil =>
      refine iff_of_false ?_ (by simp)
      intro same
      have next := decimal_inj (List.append_cancel_left same)
      omega
  | cons c rest => simp

/-- The sections below a lost structure are the same unless one of them has no name. -/
theorem sectionsFrom_moved (lines : List (Option Record)) (count number : Nat) :
    (sectionsFrom count number lines).map Section.shape =
        (sectionsFrom (count + 1) number lines).map Section.shape ↔
      some (.struct []) ∉ lines := by
  induction lines generalizing count number with
  | nil => simp [sectionsFrom]
  | cons line rest ih =>
      cases kind : isStruct line with
      | false =>
          have other : some (Record.struct []) ≠ line := by
            intro same
            rw [← same] at kind
            exact nomatch kind
          rw [sectionsFrom_cons kind, sectionsFrom_cons kind, ih, List.mem_cons,
            or_iff_right other]
      | true =>
          unfold isStruct at kind
          split at kind
          · rename_i name
            rw [sectionsFrom, sectionsFrom, List.map_cons, List.map_cons, List.cons.injEq, ih,
              Section.shape, Section.shape, Prod.mk.injEq, structureName_moved, List.mem_cons,
              Option.some.injEq, Record.struct.injEq, not_or, eq_comm (a := [])]
            simp
          · exact nomatch kind

/-- What the lines say of one kind. -/
def rows {Item : Type} (item : Record → Option Item) (lines : List (Option Record)) : List Item :=
  (lines.filterMap id).filterMap item

theorem rows_append {Item : Type} (item : Record → Option Item)
    (first second : List (Option Record)) :
    rows item (first ++ second) = rows item first ++ rows item second := by
  rw [rows, List.filterMap_append, List.filterMap_append]
  rfl

theorem foldl_joinLine (lines : List (Option Record)) (table : ProjectTable) :
    lines.foldl ProjectTable.joinLine table =
      (lines.filterMap id).foldl ProjectTable.join table := by
  induction lines generalizing table with
  | nil => rfl
  | cons line rest ih => cases line <;> exact ih _

/-- The lines other than the damaged one read as if they were alone: rows, symbols and
scripts are theirs, and every structure but the damaged one has its name and the fields that
stand below it. -/
structure Spared (before : List (Option Record)) (line : Option Record)
    (after : List (Option Record)) (original damaged : ProjectTable) : Prop where
  entries : original.entries = rows Record.entry? before ++ rows Record.entry? [line] ++
      rows Record.entry? after ∧
    damaged.entries = rows Record.entry? before ++ rows Record.entry? after
  symbols : original.symbols = rows Record.symbol? before ++ rows Record.symbol? [line] ++
      rows Record.symbol? after ∧
    damaged.symbols = rows Record.symbol? before ++ rows Record.symbol? after
  scripts : original.scripts = rows Record.script? before ++ rows Record.script? [line] ++
      rows Record.script? after ∧
    damaged.scripts = rows Record.script? before ++ rows Record.script? after
  lastPid : damaged.lastPid = (rows Record.pid? (before ++ after)).getLast?.getD 0
  lastProcessName : damaged.lastProcessName =
    (rows Record.process? (before ++ after)).getLast?.getD []
  lastBitness : damaged.lastBitness =
    (rows Record.bitness? (before ++ after)).getLast?.getD .x64
  structures :
    original.structures.map Structure.shape =
        (layout (before ++ line :: after)).map Section.shape ∧
      damaged.structures.map Structure.shape =
        (without before.length (layout (before ++ line :: after))).map Section.shape

/-- The damaged line is no struct record, or its loss moves nothing: no field below it comes
under another structure, and no structure below it is named by its place. -/
def KeepsPlace (before : List (Option Record)) (line : Option Record)
    (after : List (Option Record)) : Prop :=
  isStruct line = true →
    ((∀ earlier ∈ before, isStruct earlier = false) ∨ fieldsFrom (before.length + 1) after = []) ∧
      some (.struct []) ∉ after

theorem foldl_layout (lines : List (Option Record)) :
    (lines.foldl ProjectTable.joinLine {}).structures.map Structure.shape =
      (layout lines).map Section.shape := by
  rw [foldl_joinLine_shape lines {} 0]
  rfl

/-- The structures are spared exactly when the lost line keeps the others in their place. -/
theorem structures_spared (before after : List (Option Record)) (line : Option Record) :
    (((before ++ after).foldl ProjectTable.joinLine {}).structures.map Structure.shape =
        (without before.length (layout (before ++ line :: after))).map Section.shape) ↔
      KeepsPlace before line after := by
  have above := foldl_layout before
  have count : (before.foldl ProjectTable.joinLine {}).structures.length =
      (sectionsFrom 0 0 before).length := by
    simpa [layout] using congrArg List.length above
  rw [List.foldl_append, foldl_joinLine_shape after _ (before.length + 1), above, count,
    without_layout, KeepsPlace]
  cases isStruct line with
  | false =>
      rw [if_neg nofun, List.map_append, extendSections_shape, layout]
      simp
  | true =>
      rw [if_pos rfl, List.map_append, forall_prop_of_true rfl, layout,
        ← sectionsFrom_eq_nil 0 0, ← sectionsFrom_moved after, ← List.map_eq_nil_iff (f := Section.shape),
        ← List.map_eq_nil_iff (l := fieldsFrom _ _) (f := Prod.snd), ← extend_eq_self]
      constructor
      · intro same
        exact List.append_inj same (extend_length _ _)
      · rintro ⟨first, second⟩
        rw [first, second]

/-- The rows of one kind that the damaged line was not. -/
theorem rows_split {Item : Type} (item : Record → Option Item) (part : ProjectTable → List Item)
    (empty : part {} = [])
    (sum : ∀ (file : List Record) (table : ProjectTable),
      part (file.foldl ProjectTable.join table) = part table ++ file.filterMap item) (before after : List (Option Record))
    (line : Option Record) :
    part ((before ++ line :: after).foldl ProjectTable.joinLine {}) =
        rows item before ++ rows item [line] ++ rows item after ∧
      part ((before ++ after).foldl ProjectTable.joinLine {}) =
        rows item before ++ rows item after := by
  have all (lines : List (Option Record)) :
      part (lines.foldl ProjectTable.joinLine {}) = rows item lines := by
    rw [foldl_joinLine, sum, empty, List.nil_append, rows]
  have cut : before ++ line :: after = before ++ [line] ++ after := by
    rw [List.append_assoc, List.singleton_append]
  rw [all, all, cut, rows_append, rows_append, rows_append]
  exact ⟨rfl, rfl⟩

theorem spared_iff (before after : List (Option Record)) (line : Option Record) :
    Spared before line after ((before ++ line :: after).foldl ProjectTable.joinLine {})
        ((before ++ after).foldl ProjectTable.joinLine {}) ↔
      KeepsPlace before line after := by
  rw [← structures_spared]
  constructor
  · exact fun spared => spared.structures.2
  · intro same
    constructor
    · exact rows_split _ (·.entries) rfl foldl_join_entries before after line
    · exact rows_split _ (·.symbols) rfl foldl_join_symbols before after line
    · exact rows_split _ (·.scripts) rfl foldl_join_scripts before after line
    · rw [foldl_joinLine, foldl_join_lastPid]
      rfl
    · rw [foldl_joinLine, foldl_join_lastProcessName]
      rfl
    · rw [foldl_joinLine, foldl_join_lastBitness]
      rfl
    · exact ⟨foldl_layout _, same⟩

section Load

variable (api : Conversion)

theorem foldl_readLine_lines (lines : List Text) (table : ProjectTable) :
    lines.foldl (readLine api) table =
      (lines.map (recordOf api)).foldl ProjectTable.joinLine table := by
  rw [List.foldl_map]
  exact List.foldl_ext _ _ _ fun table line _ => readLine_eq api table line

theorem load_lines {text header : Text} {lines : List Text}
    (whole : pieces '\n' text = header :: lines) :
    load api (some text) =
      if stripBreaks (stripBom header) ∈ knownHeaders then .ok (lines.foldl (readLine api) {})
      else fail "This is not a Pointer Lab project file, or it was written by a newer version." := by
  rw [load]
  simp only [whole, List.headD_cons, List.tail_cons]

/-- A file with one line damaged still loads, and spares the others exactly when the lost
line keeps them in their place. -/
theorem load_damaged {text damagedText header line junk : Text} {before after : List Text}
    {original : ProjectTable} (whole : pieces '\n' text = header :: (before ++ line :: after))
    (changed : pieces '\n' damagedText = header :: (before ++ junk :: after))
    (loaded : load api (some text) = .ok original)
    (skipped : Skipped api (before.foldl (readLine api) {}) junk) :
    ∃ damaged, load api (some damagedText) = .ok damaged ∧
      (Spared (before.map (recordOf api)) (recordOf api line) (after.map (recordOf api)) original
          damaged ↔
        KeepsPlace (before.map (recordOf api)) (recordOf api line) (after.map (recordOf api))) := by
  rw [load_lines api whole] at loaded
  rw [load_lines api changed]
  split_ifs at loaded ⊢ with known
  · have alone : (before ++ junk :: after).foldl (readLine api) {} =
        (before ++ after).foldl (readLine api) {} := by
      rw [List.foldl_append, List.foldl_cons, readLine_skipped api skipped, List.foldl_append]
    refine ⟨_, rfl, ?_⟩
    rw [alone, ← Except.ok.inj loaded, foldl_readLine_lines, foldl_readLine_lines,
      List.map_append, List.map_append, List.map_cons]
    exact spared_iff _ _ _
  · exact nomatch loaded

end Load

/-- Two structures, each with a field. -/
def layoutLines : List Text :=
  ["struct|Player".toList, "field|0|i32|0|health".toList, "struct|Enemy".toList,
    "field|4|i32|0|armour".toList]

def fileOf (lines : List Text) : Text :=
  ("IRETABLE 3".toList :: lines).flatMap (· ++ ['\n'])

def layoutTable : ProjectTable :=
  { structures :=
      [{ id := 1, name := "Player".toList,
         fields := [{ offset := 0, type := .int32, name := "health".toList }] },
        { id := 2, name := "Enemy".toList,
          fields := [{ offset := 4, type := .int32, name := "armour".toList }] }] }

/-- The second field's line is damaged. -/
theorem load_damaged_field :
    ∃ damaged, load blankConversion
        (some (fileOf (layoutLines.take 3 ++ "field|4|i33|0|armour".toList :: []))) = .ok damaged ∧
      Spared ((layoutLines.take 3).map (recordOf blankConversion))
        (recordOf blankConversion "field|4|i32|0|armour".toList) [] layoutTable damaged := by
  obtain ⟨damaged, loaded, spared⟩ :=
    @load_damaged blankConversion (fileOf layoutLines)
      (fileOf (layoutLines.take 3 ++ "field|4|i33|0|armour".toList :: [])) "IRETABLE 3".toList
      "field|4|i32|0|armour".toList "field|4|i33|0|armour".toList (layoutLines.take 3) []
      layoutTable (by decide +kernel) (by decide +kernel) (by decide +kernel)
      ⟨.unreadableField, by decide +kernel⟩
  refine ⟨damaged, loaded, spared.mpr fun isStruct_ => ?_⟩
  have field : isStruct (recordOf blankConversion "field|4|i32|0|armour".toList) = false := by
    decide +kernel
  exact absurd (field.symm.trans isStruct_) Bool.false_ne_true

/-- A field's structure is gone, and the field comes under the one before. -/
def strayTable : ProjectTable :=
  { structures :=
      [{ id := 1, name := "Player".toList,
         fields := [{ offset := 0, type := .int32, name := "health".toList },
           { offset := 4, type := .int32, name := "armour".toList }] }] }

theorem lostStruct_strays :
    ¬ ∀ (text damagedText header line junk : Text) (before after : List Text)
      (original : ProjectTable), pieces '\n' text = header :: (before ++ line :: after) →
      pieces '\n' damagedText = header :: (before ++ junk :: after) →
      load blankConversion (some text) = .ok original →
      Skipped blankConversion (before.foldl (readLine blankConversion) {}) junk →
      ∃ damaged, load blankConversion (some damagedText) = .ok damaged ∧
        Spared (before.map (recordOf blankConversion)) (recordOf blankConversion line)
          (after.map (recordOf blankConversion)) original damaged := by
  intro every
  obtain ⟨damaged, loaded, spared⟩ := every (fileOf layoutLines)
    (fileOf (layoutLines.set 2 "strict|Enemy".toList)) "IRETABLE 3".toList
    "struct|Enemy".toList "strict|Enemy".toList (layoutLines.take 2) (layoutLines.drop 3)
    layoutTable (by decide +kernel) (by decide +kernel) (by decide +kernel)
    ⟨.unrecognisedRecord, by decide +kernel⟩
  have reads : load blankConversion (some (fileOf (layoutLines.set 2 "strict|Enemy".toList))) =
      .ok strayTable := by decide +kernel
  have placed := spared.structures.2
  rw [← Except.ok.inj (reads.symm.trans loaded)] at placed
  exact absurd placed (by decide +kernel)

end PointerLab.ProjectStore
