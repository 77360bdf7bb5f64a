import Mathlib.Data.List.Sort
import PointerLab.ProjectStoreLines

set_option autoImplicit false

/- `engine_struct/Dissector.cpp`: the list of structures, as loading a project fills it. -/
namespace PointerLab

open Domain ProjectStore

/-- A `std::ptrdiff_t` sum or difference, which wraps. -/
def ProjectStore.toPtrdiff (value : Int) : Int := toSigned (toUnsigned value)

/-- Where a field ends, with its size as a `std::ptrdiff_t`. -/
def ProjectStore.StructureField.endOffset (field : StructureField) : Int :=
  toPtrdiff (field.offset + toSigned field.size)

structure Dissector where
  structures : List Structure := []
  nextId : Nat := 1
  revision : Nat := 0

namespace Dissector

def add (name : Text) (d : Dissector) : Nat × Dissector :=
  (d.nextId,
    { structures := d.structures ++ [
        { id := d.nextId
          name := if name.isEmpty then "Structure ".toList ++ decimal d.nextId else name }]
      nextId := d.nextId + 1
      revision := bump d.revision })

/-- The loop of `setFields` over the fields in order: each has a width and starts past the
one before it, and gets a name if it has none. -/
def laidOut : Option StructureField → List StructureField → Result (List StructureField)
  | _, [] => .ok []
  | before, field :: rest =>
      if field.size = 0 then fail ("Field \"" ++ String.ofList field.name ++ "\" has no width.")
      else
        match before.filter fun last => field.offset < last.endOffset with
        | some last =>
            fail ("Fields \"" ++ String.ofList last.name ++ "\" and \"" ++
              String.ofList field.name ++ "\" overlap.")
        | none =>
            let named := { field with
              name := if field.name.isEmpty then defaultFieldName field.offset else field.name }
            match laidOut (some named) rest with
            | .error failure => .error failure
            | .ok later => .ok (named :: later)

/-- The first structure with an id, with other fields. -/
def changeFields (id : Nat) (fields : List StructureField) :
    List Structure → Option (List Structure)
  | [] => none
  | structure_ :: rest =>
      if structure_.id = id then some ({ structure_ with fields } :: rest)
      else (changeFields id fields rest).map (structure_ :: ·)

def setFields (id : Nat) (fields : List StructureField) (d : Dissector) :
    Dissector × Result Unit :=
  match laidOut none (fields.insertionSort fun left right => left.offset ≤ right.offset) with
  | .error failure => (d, .error failure)
  | .ok fields =>
      match changeFields id fields d.structures with
      | none =>
          ({ d with revision := bump d.revision },
            fail "That structure is no longer in the list.")
      | some structures => ({ d with structures, revision := bump d.revision }, .ok ())

def forgetAll (d : Dissector) : Dissector :=
  { d with structures := [], revision := bump d.revision }

/-- A structure of a file, added and given its fields. One that has no room for them stays
empty. -/
def addStructure (d : Dissector) (structure_ : Structure) : Dissector :=
  let (id, d) := d.add structure_.name
  (d.setFields id structure_.fields).1

/-- The name and the fields a structure of a file is listed with. -/
def contents (structure_ : Structure) : Text × List StructureField :=
  (structure_.name, structure_.fields)

def usable (structure_ : Structure) : Text × List StructureField :=
  match laidOut none
      (structure_.fields.insertionSort fun left right => left.offset ≤ right.offset) with
  | .error _ => (structure_.name, [])
  | .ok fields => (structure_.name, fields)

/-- Ids are given out in order. -/
def Numbered (d : Dissector) : Prop := ∀ structure_ ∈ d.structures, structure_.id < d.nextId

theorem changeFields_last {structures : List Structure} {last : Structure}
    (earlier : ∀ structure_ ∈ structures, structure_.id ≠ last.id)
    (fields : List StructureField) :
    changeFields last.id fields (structures ++ [last]) =
      some (structures ++ [{ last with fields }]) := by
  induction structures with
  | nil => simp [changeFields]
  | cons first rest ih =>
      have later := ih fun structure_ inRest => earlier structure_ (List.mem_cons_of_mem _ inRest)
      rw [List.cons_append, changeFields, if_neg (earlier first List.mem_cons_self), later]
      rfl

/-- A structure with a name is added as the file has it. -/
theorem addStructure_contents {d : Dissector} (numbered : d.Numbered) {structure_ : Structure}
    (named : structure_.name ≠ []) :
    (d.addStructure structure_).Numbered ∧
      (d.addStructure structure_).structures.map contents =
        d.structures.map contents ++ [usable structure_] := by
  have name : (if structure_.name.isEmpty then "Structure ".toList ++ decimal d.nextId
      else structure_.name) = structure_.name := if_neg (by simpa using named)
  have fresh : ∀ earlier ∈ d.structures, earlier.id ≠ d.nextId := fun earlier inside =>
    Nat.ne_of_lt (numbered earlier inside)
  have numberedNext (last : Structure) (isNext : last.id = d.nextId) :
      ∀ other ∈ d.structures ++ [last], other.id < d.nextId + 1 := by
    intro other inside
    cases List.mem_append.mp inside with
    | inl old => exact Nat.lt_succ_of_lt (numbered other old)
    | inr new =>
        rw [List.mem_singleton.mp new, isNext]
        exact Nat.lt_succ_self _
  cases laid : laidOut none
      (structure_.fields.insertionSort fun left right => left.offset ≤ right.offset) with
  | error failure =>
      simp only [addStructure, add, setFields, laid, name, usable]
      refine ⟨numberedNext _ rfl, ?_⟩
      rw [List.map_append]
      rfl
  | ok fields =>
      have changed := @changeFields_last d.structures
        { id := d.nextId, name := structure_.name } fresh fields
      simp only [addStructure, add, setFields, laid, name, usable, changed]
      refine ⟨numberedNext _ rfl, ?_⟩
      rw [List.map_append]
      rfl

/-- What a list of structures with names leaves depends on the list alone. -/
theorem foldl_addStructure {d : Dissector} (numbered : d.Numbered) {structures : List Structure}
    (named : ∀ structure_ ∈ structures, structure_.name ≠ []) :
    (structures.foldl addStructure d).structures.map contents =
      d.structures.map contents ++ structures.map usable := by
  induction structures generalizing d with
  | nil => exact (List.append_nil _).symm
  | cons structure_ rest ih =>
      obtain ⟨next, added⟩ := addStructure_contents numbered (named structure_ List.mem_cons_self)
      rw [List.foldl_cons, ih next fun other inRest => named other (List.mem_cons_of_mem _ inRest),
        added, List.append_assoc, List.map_cons, List.singleton_append]

theorem forgetAll_numbered (d : Dissector) : d.forgetAll.Numbered :=
  fun _ inside => nomatch inside

end Dissector

namespace ProjectStore

theorem attach_named {structures : List Structure} (field : StructureField)
    (named : ∀ structure_ ∈ structures, structure_.name ≠ []) :
    ∀ structure_ ∈ attach structures field, structure_.name ≠ [] := by
  unfold attach
  cases last : structures.getLast? with
  | none => exact named
  | some final =>
      intro structure_ inside
      cases List.mem_append.mp inside with
      | inl earlier => exact named structure_ (List.dropLast_subset _ earlier)
      | inr new =>
          rw [List.mem_singleton.mp new]
          exact named final (List.mem_of_getLast? last)

/-- The loader names every structure. -/
theorem join_named (table : ProjectTable) (record : Record)
    (named : ∀ structure_ ∈ table.structures, structure_.name ≠ []) :
    ∀ structure_ ∈ (table.join record).structures, structure_.name ≠ [] := by
  cases record with
  | struct name =>
      intro structure_ inside
      cases List.mem_append.mp inside with
      | inl earlier => exact named structure_ earlier
      | inr new =>
          rw [List.mem_singleton.mp new]
          cases name with
          | nil => exact List.append_ne_nil_of_left_ne_nil (by decide) _
          | cons c rest => exact List.cons_ne_nil c rest
  | field field => exact attach_named field named
  | _ => exact named

theorem load_named {api : Conversion} {text : Text} {table : ProjectTable}
    (loaded : load api (some text) = .ok table) :
    ∀ structure_ ∈ table.structures, structure_.name ≠ [] := by
  rw [load_eq api loaded]
  generalize records api (Pieces.pieces '\n' text).tail = file
  have kept : ∀ start : ProjectTable, (∀ structure_ ∈ start.structures, structure_.name ≠ []) →
      ∀ structure_ ∈ (file.foldl ProjectTable.join start).structures, structure_.name ≠ [] := by
    induction file with
    | nil => exact fun _ named => named
    | cons record rest ih => exact fun start named => ih _ (join_named start record named)
  exact kept {} fun _ inside => nomatch inside

end ProjectStore

end PointerLab
