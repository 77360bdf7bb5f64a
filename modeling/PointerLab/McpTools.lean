import PointerLab.DissectorFields

set_option autoImplicit false

/- `mcp/McpInternal.h` and `mcp/McpToolsAnalysis.cpp`: how a tool reads its arguments, and the
tools that list the structures and set the fields of one. -/
namespace PointerLab.McpTools

open Domain ProjectStore

/-- A value of `nlohmann::json`, with texts as the engines have them. -/
inductive Json where
  | null
  | boolean (value : Bool)
  | integer (value : Int)
  | floating (bits : UInt64)
  | string (text : Text)
  | array (items : List Json)
  | object (members : List (String × Json))

/-- `has`, and then `at`: a null is as good as nothing. -/
def argument (args : Json) (key : String) : Option Json :=
  match args with
  | .object members =>
      match members.find? fun member => member.1 == key with
      | some (_, .null) => none
      | some (_, value) => some value
      | none => none
  | _ => none

def requireString (args : Json) (key : String) : Result Text :=
  match argument args key with
  | none => fail (key ++ " is required.")
  | some (.string text) => .ok text
  | some _ => fail (key ++ " must be a string.")

def optionalString (args : Json) (key : String) (fallback : Text) : Text :=
  match argument args key with
  | some (.string text) => text
  | _ => fallback

def requireUint (args : Json) (key : String) : Result Nat :=
  match argument args key with
  | none => fail (key ++ " is required.")
  | some (.integer value) =>
      if value < 0 then fail (key ++ " must not be negative.") else .ok value.toNat
  | some _ => fail (key ++ " must be an integer.")

def optionalUint (args : Json) (key : String) (fallback : Nat) : Nat :=
  match requireUint args key with
  | .ok value => value
  | .error _ => fallback

def requireValueType (args : Json) (key : String) (fallback : ValueType) : Result ValueType :=
  if (argument args key).isNone then .ok fallback
  else
    match requireString args key with
    | .error failure => fail failure.message
    | .ok text =>
        match parseValueType text with
        | none =>
            fail ("\"" ++ String.ofList text ++ "\" is not a value type. Use i8, u8, i16, u16, " ++
              "i32, u32, i64, u64, f32, f64, bytes, str or wstr.")
        | some type => .ok type

/-! ## `struct_list` -/

def fieldObject (field : StructureField) : Json :=
  .object [("offset", .integer field.offset),
    ("offset_hex", .string (hexString (toUnsigned field.offset)).toList),
    ("type", .string (valueTypeName field.type)),
    ("size", .integer field.size),
    ("name", .string field.name)]

def fieldObjects (structure_ : Structure) : Json := .array (structure_.fields.map fieldObject)

/-! ## `struct_set_fields` -/

def readField : Json → Result StructureField
  | .object members =>
      match requireUint (.object members) "offset" with
      | .error failure => fail failure.message
      | .ok offset =>
          match requireValueType (.object members) "type" .int32 with
          | .error failure => fail failure.message
          | .ok type =>
              let offset := toSigned offset
              let length := optionalUint (.object members) "length" 0
              let name := optionalString (.object members) "name" (defaultFieldName offset)
              let field : StructureField := { offset, type, length, name }
              if field.size = 0 then
                fail ("A " ++ String.ofList (valueTypeName type) ++
                  " field needs a length, because its width does not come from its type.")
              else .ok field
  | _ => fail "Every field must be an object."

def readFields : List Json → Result (List StructureField)
  | [] => .ok []
  | entry :: rest =>
      match readField entry with
      | .error failure => .error failure
      | .ok field =>
          match readFields rest with
          | .error failure => .error failure
          | .ok fields => .ok (field :: fields)

def structSetFields (args : Json) (d : Dissector) : Dissector × Result Json :=
  match requireUint args "id" with
  | .error failure => (d, fail failure.message)
  | .ok id =>
      match argument args "fields" with
      | some (.array entries) =>
          match readFields entries with
          | .error failure => (d, .error failure)
          | .ok fields =>
              match d.setFields id fields with
              | (d, .error failure) => (d, .error failure)
              | (d, .ok ()) => (d, .ok (.object [("id", .integer id)]))
      | _ => (d, fail "fields must be an array.")

end PointerLab.McpTools
