import PointerLab.Dissector
import PointerLab.ProjectStoreText
import PointerLab.Runs
import PointerLab.TargetView

set_option autoImplicit false

/- `engine_struct/Dissector.cpp`: every way the fields of a structure change, and the layout
that all of them keep as long as no field ends past the range of its offsets. -/
namespace PointerLab.Dissector

open Domain ProjectStore

section Guess

/-- The readable ranges of `RegionIndex`, in order. -/
def readableRanges (session : TargetView) : List (Nat × Nat) :=
  let ranges := (session.regions.filter fun region =>
    region.state == 0x1000 && region.readable).map fun region =>
      (region.base, (region.base + region.size) % addressSpace)
  ranges.insertionSort fun left right => left.1 < right.1 ∨ left.1 = right.1 ∧ left.2 ≤ right.2

/-- `RegionIndex::contains`: in the last range that starts no later. -/
def mapped (ranges : List (Nat × Nat)) (address : Nat) : Bool :=
  0x10000 ≤ address &&
    match (ranges.takeWhile fun range => range.1 ≤ address).getLast? with
    | none => false
    | some range => range.1 ≤ address && address < range.2

def pointerLike (samples : List (List UInt8)) (size : Nat) (ranges : List (Nat × Nat)) : Bool :=
  (samples.all fun sample => sample.length == size &&
    (littleEndian sample == 0 || mapped ranges (littleEndian sample))) &&
    samples.any fun sample => littleEndian sample != 0

def allZero (bytes : List UInt8) : Bool := bytes.all (· == 0)

def everySampleOrZero (samples : List (List UInt8)) (predicate : List UInt8 → Bool) : Bool :=
  (samples.all fun sample => allZero sample || predicate sample) &&
    samples.any fun sample => !allZero sample

/-- From 1e-6 to 1e9 in magnitude. Without the sign, floats are ordered as their bits are. -/
def looksLikeFloat (bytes : List UInt8) : Bool :=
  let magnitude := littleEndian bytes % 0x80000000
  bytes.length == 4 && 0x358637BD ≤ magnitude && magnitude ≤ 0x4E6E6B28

def looksLikeDouble (bytes : List UInt8) : Bool :=
  let magnitude := littleEndian bytes % 0x8000000000000000
  bytes.length == 8 && 0x3EB0C6F7A0B5ED8D ≤ magnitude && magnitude ≤ 0x41CDCD6500000000

def samplesAt (windows : List (List UInt8)) (offset width : Nat) : List (List UInt8) :=
  windows.map fun window => (window.drop offset).take width

variable (bitness : Bitness) (ranges : List (Nat × Nat)) (windows : List (List UInt8))

/-- An eight-byte slot, where one can be. -/
def eightAt (size offset : Nat) : Option ValueType :=
  if offset % 8 = 0 ∧ offset + 8 ≤ size then
    let samples := samplesAt windows offset 8
    if pointerSize bitness == 8 && pointerLike samples 8 ranges then some .uInt64
    else if everySampleOrZero samples looksLikeDouble then some .double
    else none
  else none

def fourAt (offset : Nat) : ValueType :=
  let samples := samplesAt windows offset 4
  if pointerSize bitness == 4 && pointerLike samples 4 ranges then .uInt32
  else if everySampleOrZero samples looksLikeFloat then .float
  else .int32

/-- The slots from an offset on. -/
def slotsFrom (size offset : Nat) : List StructureField :=
  if offset + 4 ≤ size then
    match eightAt bitness ranges windows size offset with
    | some type =>
        { offset, type, name := defaultFieldName offset } :: slotsFrom size (offset + 8)
    | none =>
        { offset, type := fourAt bitness ranges windows offset, name := defaultFieldName offset } ::
          slotsFrom size (offset + 4)
  else []
termination_by size - offset

end Guess

def defaultSize : Nat := 0x400

def maxSize : Nat := 0x4000

def find (id : Nat) (d : Dissector) : Option Structure :=
  d.structures.find? fun structure_ => structure_.id == id

def gone {Value : Type} : Result Value := fail "That structure is no longer in the list."

def remove (id : Nat) (d : Dissector) : Dissector × Result Unit :=
  let d := { d with revision := bump d.revision }
  if (d.find id).isNone then (d, gone)
  else ({ d with structures := d.structures.filter fun structure_ => structure_.id != id }, .ok ())

/-- The first structure with an id, under another name. -/
def changeName (id : Nat) (name : Text) : List Structure → List Structure
  | [] => []
  | structure_ :: rest =>
      if structure_.id = id then { structure_ with name } :: rest
      else structure_ :: changeName id name rest

def rename (id : Nat) (name : Text) (d : Dissector) : Dissector × Result Unit :=
  let d := { d with revision := bump d.revision }
  if (d.find id).isNone then (d, gone)
  else if name.isEmpty then (d, fail "A structure needs a name.")
  else ({ d with structures := changeName id name d.structures }, .ok ())

def withFields (id : Nat) (fields : List StructureField) (d : Dissector) : Dissector :=
  { d with structures := (changeFields id fields d.structures).getD d.structures }

/-- Two fields share a byte, or so their ends say. -/
def clash (field existing : StructureField) : Bool :=
  existing.offset != field.offset && decide (field.offset < existing.endOffset) &&
    decide (existing.offset < field.endOffset)

def replaceAt (field : StructureField) : List StructureField → List StructureField
  | [] => []
  | first :: rest =>
      if first.offset = field.offset then field :: rest else first :: replaceAt field rest

/-- A field in the place of the one at its offset, or sorted in. -/
def place (field : StructureField) (fields : List StructureField) : List StructureField :=
  if fields.any (·.offset == field.offset) then replaceAt field fields
  else (fields ++ [field]).insertionSort fun left right => left.offset ≤ right.offset

def setField (id : Nat) (field : StructureField) (d : Dissector) : Dissector × Result Unit :=
  let d := { d with revision := bump d.revision }
  match d.find id with
  | none => (d, gone)
  | some structure_ =>
      if field.size = 0 then
        (d, fail ("A " ++ String.ofList (valueTypeName field.type) ++
          " field needs a length, because its width does not come from its type."))
      else
        match structure_.fields.find? (clash field) with
        | some existing =>
            (d, fail ("That field would overlap \"" ++ String.ofList existing.name ++ "\" at +" ++
              hexString (toUnsigned existing.offset) ++
              ". Two fields cannot own the same byte: the display would have to pick one, and " ++
              "it would be wrong half the time."))
        | none =>
            let named := { field with
              name := if field.name.isEmpty then defaultFieldName field.offset else field.name }
            (d.withFields id (place named structure_.fields), .ok ())

def removeField (id : Nat) (offset : Int) (d : Dissector) : Dissector × Result Unit :=
  let d := { d with revision := bump d.revision }
  match d.find id with
  | none => (d, gone)
  | some structure_ =>
      let others := structure_.fields.filter fun field => field.offset != offset
      if others.length = structure_.fields.length then
        (d, fail "There is no field at that offset.")
      else (d.withFields id others, .ok ())

/-- `guess`. What a read finds may differ from one address to the next; the session is as
it is before and after them. -/
def guess (id : Nat) (addresses : List Nat) (size : Nat) (session : TargetView)
    (targets : Nat → TargetView) (d : Dissector) : Dissector × Result Nat :=
  if (d.find id).isNone then (d, gone)
  else if addresses.isEmpty then (d, fail "Give at least one address to read.")
  else if !session.attached then (d, fail "Attach to a process first.")
  else
    let size := if size = 0 then defaultSize else size
    if maxSize < size then
      (d, fail ("At most " ++ hexString maxSize ++
        " bytes: a structure of more rows than that is not readable."))
    else
      let size := size - size % 4
      if size < 4 then (d, fail "Read at least four bytes.")
      else
        let windows := (addresses.mapIdx fun index address =>
          (targets index).readBytes address size).filterMap fun read =>
            match read with
            | .ok bytes => if bytes.length = size then some bytes else none
            | .error _ => none
        if windows.isEmpty then
          (d, fail ("None of those addresses could be read for " ++
            String.ofList (decimal size) ++ " bytes. Either the object is smaller than that, " ++
            "or it does not start where you think."))
        else
          let fields := slotsFrom session.bitness (readableRanges session) windows size 0
          match d.setFields id fields with
          | (d, .error failure) => (d, .error { failure with code := 0 })
          | (d, .ok ()) => (d, .ok fields.length)

/-- What changes the structures. A project is loaded from the text of its file. -/
inductive Change
  | add (name : Text)
  | remove (id : Nat)
  | rename (id : Nat) (name : Text)
  | setField (id : Nat) (field : StructureField)
  | removeField (id : Nat) (offset : Int)
  | setFields (id : Nat) (fields : List StructureField)
  | guess (id : Nat) (addresses : List Nat) (size : Nat) (session : TargetView)
      (targets : Nat → TargetView)
  | load (text : Text)

def change (api : Conversion) (d : Dissector) : Change → Dissector
  | .add name => (d.add name).2
  | .remove id => (d.remove id).1
  | .rename id name => (d.rename id name).1
  | .setField id field => (d.setField id field).1
  | .removeField id offset => (d.removeField id offset).1
  | .setFields id fields => (d.setFields id fields).1
  | .guess id addresses size session targets => (d.guess id addresses size session targets).1
  | .load text =>
      match load api (some text) with
      | .error _ => d
      | .ok table => table.structures.foldl addStructure d.forgetAll

end PointerLab.Dissector
