import PointerLab.DissectorFields

set_option autoImplicit false

/- The fields of a structure lie one behind the other, whichever way they came in, as long as
none was given that ends past the range of its offsets. -/
namespace PointerLab

open Domain ProjectStore Runs

namespace ProjectStore.StructureField

/-- The field owns the byte at a place, as integers. -/
def Covers (field : StructureField) (place : Int) : Prop :=
  field.offset ≤ place ∧ place < field.offset + field.size

/-- The field ends where a `std::ptrdiff_t` can say. -/
structure Fits (field : StructureField) : Prop where
  lower : -0x8000000000000000 ≤ field.offset
  upper : field.offset + field.size < 0x8000000000000000

theorem Fits.endOffset {field : StructureField} (fits : field.Fits) :
    field.endOffset = field.offset + field.size := by
  have same : toUnsigned (field.offset + toSigned field.size) =
      toUnsigned (field.offset + field.size) := by
    unfold toUnsigned toSigned addressSpace
    split <;> omega
  have lower := fits.lower
  have inRange : IsPtrdiff (field.offset + field.size) :=
    ⟨by omega, fits.upper⟩
  rw [StructureField.endOffset, toPtrdiff, same, toSigned_toUnsigned inRange]

theorem Fits.named {field : StructureField} (fits : field.Fits) (name : Text) :
    Fits { field with name } := ⟨fits.lower, fits.upper⟩

end ProjectStore.StructureField

namespace Dissector

/-- The fields are in order, each has a width, and no two share a byte. -/
structure LaidOut (fields : List StructureField) : Prop where
  sorted : fields.Pairwise fun left right => left.offset < right.offset
  wide : ∀ field ∈ fields, field.size ≠ 0
  apart : fields.Pairwise fun left right => ∀ place, ¬ (left.Covers place ∧ right.Covers place)

/-- Each field ends before the next one starts. -/
structure Layout (fields : List StructureField) : Prop where
  behind : fields.Pairwise fun left right => left.offset + (left.size : Int) ≤ right.offset
  wide : ∀ field ∈ fields, field.size ≠ 0
  fits : ∀ field ∈ fields, field.Fits

theorem Layout.laidOut {fields : List StructureField} (layout : Layout fields) :
    LaidOut fields where
  wide := layout.wide
  sorted := by
    refine layout.behind.imp_of_mem ?_
    intro left right inLeft _ behind
    have wide := layout.wide left inLeft
    omega
  apart := by
    refine layout.behind.imp ?_
    rintro left right behind place ⟨⟨_, beforeEnd⟩, ⟨afterStart, _⟩⟩
    omega

theorem Layout.nil : Layout [] := ⟨.nil, nofun, nofun⟩

theorem Layout.sublist {fields fewer : List StructureField} (layout : Layout fields)
    (part : fewer.Sublist fields) : Layout fewer where
  behind := layout.behind.sublist part
  wide := fun field inside => layout.wide field (part.subset inside)
  fits := fun field inside => layout.fits field (part.subset inside)

theorem Layout.cons {field : StructureField} {fields : List StructureField}
    (layout : Layout fields) (wide : field.size ≠ 0) (fits : field.Fits)
    (first : ∀ other ∈ fields, field.offset + field.size ≤ other.offset) :
    Layout (field :: fields) where
  behind := List.pairwise_cons.mpr ⟨first, layout.behind⟩
  wide := List.forall_mem_cons.mpr ⟨wide, layout.wide⟩
  fits := List.forall_mem_cons.mpr ⟨fits, layout.fits⟩

theorem layout_cons_iff {field : StructureField} {fields : List StructureField} :
    Layout (field :: fields) ↔ Layout fields ∧ field.size ≠ 0 ∧ field.Fits ∧
      ∀ other ∈ fields, field.offset + field.size ≤ other.offset := by
  constructor
  · intro layout
    refine ⟨layout.sublist (List.sublist_cons_self _ _), layout.wide _ List.mem_cons_self,
      layout.fits _ List.mem_cons_self, ?_⟩
    exact (List.pairwise_cons.mp layout.behind).1
  · rintro ⟨layout, wide, fits, first⟩
    exact layout.cons wide fits first

/-- What the loop of `setFields` lets pass. -/
theorem laidOut_layout {before : Option StructureField} {fields result : List StructureField}
    (fits : ∀ field ∈ fields, field.Fits) (passes : laidOut before fields = .ok result) :
    Layout result ∧
      ∀ last ∈ before, last.Fits → ∀ field ∈ result, last.offset + last.size ≤ field.offset := by
  induction fields generalizing before result with
  | nil =>
      cases passes
      exact ⟨.nil, fun _ _ _ => nofun⟩
  | cons field rest ih =>
      have fieldFits : field.Fits := fits field List.mem_cons_self
      unfold laidOut at passes
      split at passes
      · cases passes
      · rename_i wide
        split at passes
        · cases passes
        · rename_i clear
          rcases later : laidOut (some { field with
              name := if field.name.isEmpty then defaultFieldName field.offset else field.name })
              rest with failure | named
          · simp only [later] at passes
            cases passes
          · simp only [later] at passes
            cases passes
            obtain ⟨layout, behind⟩ :=
              ih (fun other inRest => fits other (List.mem_cons_of_mem _ inRest)) later
            have first := behind _ rfl (fieldFits.named _)
            refine ⟨layout.cons wide (fieldFits.named _) first, ?_⟩
            intro last isBefore lastFits other inResult
            have start : last.offset + last.size ≤ field.offset := by
              rw [Option.mem_def.mp isBefore, Option.filter_some] at clear
              have ends := lastFits.endOffset
              by_contra overlaps
              rw [if_pos (by simpa [ends] using Int.not_le.mp overlaps)] at clear
              cases clear
            cases List.mem_cons.mp inResult with
            | inl same => exact same ▸ start
            | inr inLater =>
                have next := first other inLater
                simp only at next
                omega

theorem defaultFieldName_ne_nil (offset : Int) : defaultFieldName offset ≠ [] := by
  unfold defaultFieldName
  split
  · exact List.append_ne_nil_of_left_ne_nil (by decide) _
  · exact List.append_ne_nil_of_left_ne_nil (by decide) _

/-- The name that a field without one gets. -/
theorem name_ne_nil (field : StructureField) :
    (if field.name.isEmpty then defaultFieldName field.offset else field.name) ≠ [] := by
  split
  · exact defaultFieldName_ne_nil field.offset
  · rename_i named
    simpa using named

/-- No field starts before the one in front of it ends, as `end()` has it. -/
abbrev Behind (fields : List StructureField) : Prop :=
  fields.IsChain fun left right => left.endOffset ≤ right.offset

theorem behind_named (field : StructureField) (name : Text) (rest : List StructureField) :
    Behind ({ field with name } :: rest) ↔ Behind (field :: rest) := by
  cases rest with
  | nil => simp [Behind]
  | cons next later =>
      unfold Behind
      rw [List.isChain_cons_cons, List.isChain_cons_cons]
      exact Iff.rfl

theorem laidOut_behind {before : Option StructureField} {fields result : List StructureField}
    (passes : laidOut before fields = .ok result) : Behind (before.toList ++ fields) := by
  induction fields generalizing before result with
  | nil => cases before <;> simp [Behind]
  | cons field rest ih =>
      unfold laidOut at passes
      split at passes
      · cases passes
      split at passes
      · cases passes
      rename_i clear
      simp only at passes
      split at passes
      · cases passes
      · rename_i later laid
        have next := (behind_named field _ rest).mp (ih laid)
        cases before with
        | none => exact next
        | some last =>
            refine List.isChain_cons_cons.mpr ⟨?_, next⟩
            rw [Option.filter_some] at clear
            split at clear
            · cases clear
            · rename_i starts
              simpa using starts

theorem laidOut_of_behind {before : Option StructureField} {fields : List StructureField}
    (named : ∀ field ∈ fields, field.name ≠ []) (wide : ∀ field ∈ fields, field.size ≠ 0)
    (behind : Behind (before.toList ++ fields)) : laidOut before fields = .ok fields := by
  induction fields generalizing before with
  | nil => rfl
  | cons field rest ih =>
      have clear : (before.filter fun last => field.offset < last.endOffset) = none := by
        rw [Option.filter_eq_none_iff]
        intro last isBefore
        cases isBefore
        have starts := (List.isChain_cons_cons.mp behind).1
        simpa using starts
      have next : Behind (field :: rest) := by
        cases before with
        | none => exact behind
        | some last => exact (List.isChain_cons_cons.mp behind).2
      have name : (if field.name.isEmpty then defaultFieldName field.offset else field.name) =
          field.name := if_neg (by simpa using named field List.mem_cons_self)
      have later := @ih (some field)
        (fun other inRest => named other (List.mem_cons_of_mem _ inRest))
        (fun other inRest => wide other (List.mem_cons_of_mem _ inRest)) next
      simp only [laidOut, wide field List.mem_cons_self, clear, name, later, if_false]

theorem Layout.chain {fields : List StructureField} (layout : Layout fields) : Behind fields := by
  have behind : fields.Pairwise fun left right => left.endOffset ≤ right.offset := by
    refine layout.behind.imp_of_mem ?_
    intro left right inLeft _ ends
    rw [(layout.fits left inLeft).endOffset]
    exact ends
  exact behind.isChain

/-- A layout whose fields have names passes as it is. -/
theorem laidOut_of_layout {fields : List StructureField} (layout : Layout fields)
    (named : ∀ field ∈ fields, field.name ≠ []) : laidOut none fields = .ok fields :=
  laidOut_of_behind named layout.wide layout.chain

theorem changeFields_of_find {id : Nat} {structures : List Structure} {structure_ : Structure}
    (found : structures.find? (fun structure_ => structure_.id == id) = some structure_)
    (fields : List StructureField) :
    ∃ changed, changeFields id fields structures = some changed ∧
      changed.find? (fun structure_ => structure_.id == id) = some { structure_ with fields } := by
  induction structures with
  | nil => exact absurd found (by simp)
  | cons first rest ih =>
      rw [List.find?_cons] at found
      unfold changeFields
      by_cases same : first.id = id
      · have here : (first.id == id) = true := by simpa using same
        simp only [here] at found
        cases found
        exact ⟨_, if_pos same, by simp [same]⟩
      · have other : (first.id == id) = false := by simpa using same
        simp only [other] at found
        obtain ⟨changed, changes, now⟩ := ih found
        refine ⟨first :: changed, ?_, ?_⟩
        · rw [if_neg same, changes, Option.map_some]
        · rw [List.find?_cons, other]
          exact now

theorem insertionSort_sorted {fields : List StructureField}
    (sorted : (fields.map StructureField.offset).Pairwise fun left right => left ≤ right) :
    fields.insertionSort (fun left right => left.offset ≤ right.offset) = fields :=
  List.Pairwise.insertionSort_eq (List.pairwise_map.mp sorted)

/-- A layout whose fields have names is accepted, and is what the structure has then. -/
theorem setFields_layout {d : Dissector} {id : Nat} {structure_ : Structure}
    (found : d.find id = some structure_) {fields : List StructureField} (layout : Layout fields)
    (named : ∀ field ∈ fields, field.name ≠ []) :
    (d.setFields id fields).2 = .ok () ∧
      (d.setFields id fields).1.find id = some { structure_ with fields } := by
  have sorted : (fields.map StructureField.offset).Pairwise fun left right => left ≤ right :=
    List.pairwise_map.mpr (layout.laidOut.sorted.imp fun before => Int.le_of_lt before)
  have passes := laidOut_of_layout layout named
  obtain ⟨changed, changes, now⟩ := changeFields_of_find found fields
  unfold Dissector.setFields
  simp only [insertionSort_sorted sorted, passes, changes]
  exact ⟨trivial, now⟩

/-- One of two fields ends before the other starts. -/
def Apart (left right : StructureField) : Prop :=
  left.offset + (left.size : Int) ≤ right.offset ∨ right.offset + (right.size : Int) ≤ left.offset

theorem apart_of_clear {field existing : StructureField} (fits : field.Fits)
    (existingFits : existing.Fits) (other : existing.offset ≠ field.offset)
    (clear : clash field existing = false) : Apart field existing := by
  unfold Apart
  by_contra shares
  have ends := fits.endOffset
  have existingEnds := existingFits.endOffset
  have clashes : clash field existing = true := by
    simp only [clash, Bool.and_eq_true, bne_iff_ne, decide_eq_true_eq]
    exact ⟨⟨other, by omega⟩, by omega⟩
  exact absurd (clear.symm.trans clashes) (by decide)

instance : Std.Total fun left right : StructureField => left.offset ≤ right.offset :=
  ⟨fun left right => Int.le_total left.offset right.offset⟩

instance : IsTrans StructureField fun left right => left.offset ≤ right.offset :=
  ⟨fun _ _ _ => Int.le_trans⟩

/-- Fields that keep apart lie one behind the other once they are sorted. -/
theorem layout_insertionSort {fields : List StructureField} (apart : fields.Pairwise Apart)
    (wide : ∀ field ∈ fields, field.size ≠ 0) (fits : ∀ field ∈ fields, field.Fits) :
    Layout (fields.insertionSort fun left right => left.offset ≤ right.offset) := by
  have same := List.perm_insertionSort (fun left right : StructureField =>
    left.offset ≤ right.offset) fields
  have sorted := List.pairwise_insertionSort (fun left right : StructureField =>
    left.offset ≤ right.offset) fields
  have stillApart := (same.pairwise_iff fun apart => Or.symm apart).mpr apart
  refine ⟨?_, fun field inside => wide field (same.subset inside),
    fun field inside => fits field (same.subset inside)⟩
  refine (sorted.and stillApart).imp_of_mem ?_
  intro left right _ inRight both
  obtain ⟨before, first | second⟩ := both
  · exact first
  · have rightWide := wide right (same.subset inRight)
    omega

theorem mem_replaceAt {field other : StructureField} {fields : List StructureField}
    (inside : other ∈ replaceAt field fields) : other = field ∨ other ∈ fields := by
  induction fields with
  | nil => exact absurd inside List.not_mem_nil
  | cons first rest ih =>
      unfold replaceAt at inside
      split at inside
      · exact (List.mem_cons.mp inside).imp_right (List.mem_cons_of_mem _)
      · cases List.mem_cons.mp inside with
        | inl same => exact Or.inr (same ▸ List.mem_cons_self)
        | inr later => exact (ih later).imp_right (List.mem_cons_of_mem _)

/-- A field in the place of another with its offset keeps the order, where it keeps apart
from the rest. -/
theorem Layout.replaceAt {field : StructureField} {fields : List StructureField}
    (layout : Layout fields) (wide : field.size ≠ 0) (fits : field.Fits)
    (apart : ∀ existing ∈ fields, existing.offset ≠ field.offset → Apart field existing)
    (present : ∃ existing ∈ fields, existing.offset = field.offset) :
    Layout (replaceAt field fields) := by
  induction fields with
  | nil =>
      obtain ⟨_, inside, _⟩ := present
      exact absurd inside List.not_mem_nil
  | cons first rest ih =>
      obtain ⟨restLayout, firstWide, firstFits, behind⟩ := layout_cons_iff.mp layout
      unfold Dissector.replaceAt
      split
      · rename_i same
        refine restLayout.cons wide fits ?_
        intro other inRest
        have after := behind other inRest
        have otherWide := restLayout.wide other inRest
        rcases apart other (List.mem_cons_of_mem _ inRest) (by omega) with ends | starts
        · exact ends
        · omega
      · rename_i differs
        have later : ∃ existing ∈ rest, existing.offset = field.offset := by
          obtain ⟨existing, inside, same⟩ := present
          refine ⟨existing, (List.mem_cons.mp inside).resolve_left ?_, same⟩
          exact fun isFirst => differs (isFirst ▸ same)
        have next := ih restLayout (fun existing inRest =>
          apart existing (List.mem_cons_of_mem _ inRest)) later
        refine next.cons firstWide firstFits ?_
        intro other inside
        cases mem_replaceAt inside with
        | inl new =>
            obtain ⟨existing, inRest, same⟩ := later
            rw [new, ← same]
            exact behind existing inRest
        | inr old => exact behind other old

/-- A field that clashes with none is placed. -/
theorem Layout.place {field : StructureField} {fields : List StructureField}
    (layout : Layout fields) (wide : field.size ≠ 0) (fits : field.Fits)
    (clear : fields.find? (clash field) = none) : Layout (place field fields) := by
  have apart : ∀ existing ∈ fields, existing.offset ≠ field.offset → Apart field existing := by
    intro existing inside other
    have none_ := List.find?_eq_none.mp clear existing inside
    exact apart_of_clear fits (layout.fits existing inside) other (Bool.eq_false_iff.mpr none_)
  unfold Dissector.place
  split
  · rename_i taken
    obtain ⟨existing, inside, same⟩ := List.any_eq_true.mp taken
    exact layout.replaceAt wide fits apart ⟨existing, inside, by simpa using same⟩
  · rename_i free
    have elsewhere : ∀ existing ∈ fields, existing.offset ≠ field.offset := by
      intro existing inside same
      exact free (List.any_eq_true.mpr ⟨existing, inside, by simpa using same⟩)
    apply layout_insertionSort
    · refine List.pairwise_append.mpr ⟨layout.behind.imp Or.inl, List.pairwise_singleton _ _, ?_⟩
      intro existing inside new isNew
      rw [List.mem_singleton.mp isNew]
      exact (apart existing inside (elsewhere existing inside)).symm
    · intro other inside
      cases List.mem_append.mp inside with
      | inl old => exact layout.wide other old
      | inr new => exact List.mem_singleton.mp new ▸ wide
    · intro other inside
      cases List.mem_append.mp inside with
      | inl old => exact layout.fits other old
      | inr new => exact List.mem_singleton.mp new ▸ fits

theorem mem_changeFields {id : Nat} {fields : List StructureField}
    {structures changed : List Structure}
    (changes : changeFields id fields structures = some changed) {structure_ : Structure}
    (inside : structure_ ∈ changed) :
    structure_ ∈ structures ∨ structure_.fields = fields := by
  induction structures generalizing changed with
  | nil => cases changes
  | cons first rest ih =>
      unfold changeFields at changes
      split at changes
      · cases changes
        cases List.mem_cons.mp inside with
        | inl same => exact Or.inr (same ▸ rfl)
        | inr later => exact Or.inl (List.mem_cons_of_mem _ later)
      · obtain ⟨others, changesLater, rfl⟩ := Option.map_eq_some_iff.mp changes
        cases List.mem_cons.mp inside with
        | inl same => exact Or.inl (same ▸ List.mem_cons_self)
        | inr later => exact (ih changesLater later).imp_left (List.mem_cons_of_mem _)

/-- The guessed slots are in the window that was read. -/
theorem slotsFrom_fits {bitness : Bitness} {ranges : List (Nat × Nat)}
    {windows : List (List UInt8)} {size : Nat} (small : size ≤ maxSize) (offset : Nat) :
    ∀ field ∈ slotsFrom bitness ranges windows size offset, field.Fits := by
  fun_induction slotsFrom bitness ranges windows size offset with
  | case1 offset inside type eight ih =>
      refine List.forall_mem_cons.mpr ⟨⟨?_, ?_⟩, ih⟩
      · simp only
        omega
      · have width : valueTypeSize type ≤ 8 := by cases type <;> decide
        simp only [StructureField.size, maxSize] at small ⊢
        split <;> omega
  | case2 offset inside none_ ih =>
      refine List.forall_mem_cons.mpr ⟨⟨?_, ?_⟩, ih⟩
      · simp only
        omega
      · have width : valueTypeSize (fourAt bitness ranges windows offset) ≤ 8 := by
          cases fourAt bitness ranges windows offset <;> decide
        simp only [StructureField.size, maxSize] at small ⊢
        split <;> omega
  | case3 => exact fun _ => nofun

/-! ## What every change keeps -/

/-- The fields of every structure have a property. -/
def Every (holds : List StructureField → Prop) (d : Dissector) : Prop :=
  ∀ structure_ ∈ d.structures, holds structure_.fields

/-- A property of field lists that no change takes away, as long as it is given such fields
only. -/
structure Stable (allowed : StructureField → Prop) (holds : List StructureField → Prop) :
    Prop where
  nil : holds []
  sublist : ∀ {fields fewer : List StructureField}, holds fields → fewer.Sublist fields →
    holds fewer
  place : ∀ {field fields}, holds fields → field.size ≠ 0 → allowed field →
    fields.find? (clash field) = none →
      holds (place { field with
        name := if field.name.isEmpty then defaultFieldName field.offset else field.name } fields)
  laidOut : ∀ {fields result : List StructureField}, (∀ field ∈ fields, allowed field) →
    laidOut none (fields.insertionSort fun left right => left.offset ≤ right.offset) =
      .ok result → holds result
  guessed : ∀ bitness ranges windows {size : Nat}, size ≤ maxSize →
    ∀ field ∈ slotsFrom bitness ranges windows size 0, allowed field

/-- The fields a change is given, or that are in the file, are allowed. -/
def Change.Allowed (api : Conversion) (allowed : StructureField → Prop) : Change → Prop
  | .setField _ field => allowed field
  | .setFields _ fields => ∀ field ∈ fields, allowed field
  | .load text => ∀ table, ProjectStore.load api (some text) = .ok table →
      ∀ structure_ ∈ table.structures, ∀ field ∈ structure_.fields, allowed field
  | _ => True

section

variable {allowed : StructureField → Prop} {holds : List StructureField → Prop} {d : Dissector}

theorem Every.withFields (every : d.Every holds) (id : Nat) {fields : List StructureField}
    (held : holds fields) : (d.withFields id fields).Every holds := by
  intro structure_ inside
  rcases changes : changeFields id fields d.structures with _ | changed
  · simp only [Dissector.withFields, changes, Option.getD_none] at inside
    exact every structure_ inside
  · simp only [Dissector.withFields, changes, Option.getD_some] at inside
    cases mem_changeFields changes inside with
    | inl old => exact every structure_ old
    | inr new => exact new ▸ held

theorem Every.find (every : d.Every holds) {id : Nat} {structure_ : Structure}
    (found : d.find id = some structure_) : holds structure_.fields :=
  every structure_ (List.mem_of_find?_eq_some found)

theorem Every.add (every : d.Every holds) (nil : holds []) (name : Text) :
    (d.add name).2.Every holds := by
  intro structure_ inside
  cases List.mem_append.mp inside with
  | inl old => exact every structure_ old
  | inr new => exact List.mem_singleton.mp new ▸ nil

theorem Every.remove (every : d.Every holds) (id : Nat) : (d.remove id).1.Every holds := by
  unfold Dissector.remove
  simp only
  split
  · exact every
  · exact fun structure_ inside => every structure_ (List.mem_filter.mp inside).1

theorem changeName_every {structures : List Structure}
    (held : ∀ structure_ ∈ structures, holds structure_.fields) (id : Nat) (name : Text) :
    ∀ structure_ ∈ changeName id name structures, holds structure_.fields := by
  induction structures with
  | nil => exact fun _ => nofun
  | cons first rest ih =>
      obtain ⟨firstHeld, restHeld⟩ := List.forall_mem_cons.mp held
      unfold changeName
      split
      · exact List.forall_mem_cons.mpr ⟨firstHeld, restHeld⟩
      · exact List.forall_mem_cons.mpr ⟨firstHeld, ih restHeld⟩

theorem Every.rename (every : d.Every holds) (id : Nat) (name : Text) :
    (d.rename id name).1.Every holds := by
  unfold Dissector.rename
  simp only
  split
  · exact every
  · split
    · exact every
    · exact changeName_every every id name

theorem Every.setField (every : d.Every holds) (stable : Stable allowed holds) (id : Nat)
    {field : StructureField} (given : allowed field) : (d.setField id field).1.Every holds := by
  unfold Dissector.setField
  simp only
  split
  · exact every
  · rename_i structure_ found
    split
    · exact every
    · rename_i wide
      split
      · exact every
      · rename_i clear
        have held : holds structure_.fields := @Every.find holds d every id structure_ found
        exact Every.withFields every id (stable.place held wide given clear)

theorem Every.removeField (every : d.Every holds) (stable : Stable allowed holds) (id : Nat)
    (offset : Int) : (d.removeField id offset).1.Every holds := by
  unfold Dissector.removeField
  simp only
  split
  · exact every
  · rename_i structure_ found
    split
    · exact every
    · have held : holds structure_.fields := @Every.find holds d every id structure_ found
      exact Every.withFields every id (stable.sublist held List.filter_sublist)

theorem Every.setFields (every : d.Every holds) (stable : Stable allowed holds) (id : Nat)
    {fields : List StructureField} (given : ∀ field ∈ fields, allowed field) :
    (d.setFields id fields).1.Every holds := by
  unfold Dissector.setFields
  split
  · exact every
  · rename_i laid passes
    have held : holds laid := stable.laidOut given passes
    split
    · exact every
    · rename_i structures changes
      intro structure_ inside
      cases mem_changeFields changes inside with
      | inl old => exact every structure_ old
      | inr new => exact new ▸ held

theorem Every.guess (every : d.Every holds) (stable : Stable allowed holds) (id : Nat)
    (addresses : List Nat) (size : Nat) (session : TargetView) (targets : Nat → TargetView) :
    (d.guess id addresses size session targets).1.Every holds := by
  unfold Dissector.guess
  split
  · exact every
  split
  · exact every
  split
  · exact every
  simp only
  generalize (if size = 0 then defaultSize else size) = wanted
  split
  · exact every
  rename_i small
  split
  · exact every
  split
  · exact every
  generalize fieldsAre : slotsFrom session.bitness (readableRanges session) _ _ 0 = fields
  have given : ∀ field ∈ fields, allowed field := by
    rw [← fieldsAre]
    exact stable.guessed _ _ _ (by omega)
  have next := every.setFields stable id given
  rcases sets : d.setFields id fields with ⟨after, _ | _⟩ <;> rw [sets] at next <;> exact next

theorem every_forgetAll (d : Dissector) : d.forgetAll.Every holds :=
  fun _ inside => nomatch inside

theorem Every.load (every : d.Every holds) (stable : Stable allowed holds)
    {structures : List Structure}
    (given : ∀ structure_ ∈ structures, ∀ field ∈ structure_.fields, allowed field) :
    (structures.foldl Dissector.addStructure d).Every holds := by
  induction structures generalizing d with
  | nil => exact every
  | cons first rest ih =>
      obtain ⟨firstGiven, restGiven⟩ := List.forall_mem_cons.mp given
      have added := every.add stable.nil first.name
      exact ih (added.setFields stable _ firstGiven) restGiven

theorem Every.change {api : Conversion} (every : d.Every holds) (stable : Stable allowed holds)
    {change : Change} (given : change.Allowed api allowed) : (d.change api change).Every holds := by
  cases change with
  | add name => exact every.add stable.nil name
  | remove id => exact every.remove id
  | rename id name => exact every.rename id name
  | setField id field => exact every.setField stable id given
  | removeField id offset => exact every.removeField stable id offset
  | setFields id fields => exact every.setFields stable id given
  | guess id addresses size session targets =>
      exact every.guess stable id addresses size session targets
  | load text =>
      unfold Dissector.change
      simp only
      split
      · exact every
      · rename_i table loaded
        exact (every_forgetAll d).load stable (given table loaded)

/-- What is stable holds of every structure that a run of changes leads to. -/
theorem every_run {api : Conversion} (stable : Stable allowed holds) {changes : List Change}
    (given : ∀ change ∈ changes, change.Allowed api allowed) :
    (run (Dissector.change api) {} changes).Every holds := by
  suffices from_ : ∀ d : Dissector, d.Every holds →
      (run (Dissector.change api) d changes).Every holds from
    from_ {} fun _ => nofun
  induction changes with
  | nil => exact fun _ every => every
  | cons change rest ih =>
      obtain ⟨firstGiven, restGiven⟩ := List.forall_mem_cons.mp given
      exact fun d every => ih restGiven (d.change api change) (every.change stable firstGiven)

end

/-- Fields that end within range keep lying one behind the other. -/
theorem layout_stable : Stable StructureField.Fits Layout where
  nil := .nil
  sublist := Layout.sublist
  place := fun layout wide fits clear => layout.place wide (fits.named _) clear
  laidOut := by
    intro fields result fits passes
    have sortedFits : ∀ field ∈ fields.insertionSort fun left right => left.offset ≤ right.offset,
        field.Fits := fun field inside => fits field ((List.mem_insertionSort _).mp inside)
    exact (laidOut_layout sortedFits passes).1
  guessed := fun _ _ _ _ small => slotsFrom_fits small 0

/-- Every structure of the list is laid out. -/
def Kept (d : Dissector) : Prop := ∀ structure_ ∈ d.structures, Layout structure_.fields

theorem Kept.find {d : Dissector} (kept : d.Kept) {id : Nat} {structure_ : Structure}
    (found : d.find id = some structure_) : Layout structure_.fields :=
  Every.find kept found

/-- No field that is given, or that is in the file, ends past the range of its offsets. -/
def Change.Fits (api : Conversion) : Change → Prop
  | .setField _ field => field.Fits
  | .setFields _ fields => ∀ field ∈ fields, field.Fits
  | .load text => ∀ table, ProjectStore.load api (some text) = .ok table →
      ∀ structure_ ∈ table.structures, ∀ field ∈ structure_.fields, field.Fits
  | _ => True

theorem Change.Fits.allowed {api : Conversion} {change : Change} (fits : change.Fits api) :
    change.Allowed api StructureField.Fits := by
  cases change <;> exact fits

/-- In every structure that fitting changes lead to, the fields lie one behind the other. -/
theorem kept_run {api : Conversion} {changes : List Change}
    (fits : ∀ change ∈ changes, change.Fits api) :
    (run (Dissector.change api) {} changes).Kept :=
  every_run layout_stable fun change inside => (fits change inside).allowed

end Dissector

end PointerLab
