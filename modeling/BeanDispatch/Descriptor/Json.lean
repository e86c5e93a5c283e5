import BeanDispatch.Descriptor
import BeanDispatch.Signature.Json

/-! The JSON forms of annotations and descriptors. Annotations are an object of objects of strings.
A descriptor is a record that nests its type parameters; only the type has no default, and
annotations are left out where there are none. -/

namespace BeanDispatch

open Json

namespace Annotations

def encode (a : Annotations) : Json :=
  .object (a.entries.map fun entry =>
    (entry.1, .object (entry.2.entries.map fun member =>
      (member.1, .str member.2))))

def decode (json : Json) : Decoded Annotations :=
  (decodeMap (fun j => (decodeMap decodeString j).map OrderedMap.ofList) json).map
    OrderedMap.ofList

end Annotations

namespace Descriptor

def encode : Descriptor → Json
  | mk name type typeParameters nullable annotations =>
    .object ([("name", .str name), ("type", type.encode),
      ("type_parameters", .array (encodeAll typeParameters)), ("nullable", .bool nullable)] ++
      if annotations.isEmpty then [] else [("annotation_metadata", Annotations.encode annotations)])
where
  encodeAll : List Descriptor → List Json
    | [] => []
    | d :: rest => d.encode :: encodeAll rest

structure Found where
  name : Option String := none
  type : Option TypeName := none
  typeParameters : Option (List Descriptor) := none
  nullable : Option Bool := none
  annotations : Option Annotations := none

def Found.finish (found : Found) : Decoded Descriptor := do
  return Descriptor.mk (found.name.getD "") (← required "type" found.type)
    (found.typeParameters.getD []) (found.nullable.getD false)
    (found.annotations.getD OrderedMap.empty)

/-- The fields after the type parameters of a descriptor written as an array. -/
def decodeTail (name : String) (type : TypeName) (typeParameters : List Descriptor) :
    List Json → Decoded Descriptor
  | [] => .ok (mk name type typeParameters false OrderedMap.empty)
  | [nullable] => do
    return mk name type typeParameters (← decodeBool nullable) OrderedMap.empty
  | nullable :: annotations :: surplus => do
    let nullable ← decodeBool nullable
    let annotations ← Annotations.decode annotations
    if surplus.isEmpty then return mk name type typeParameters nullable annotations
    else throw .notJson

mutual

def decode : Json → Decoded Descriptor
  | .object members => do (← decodeFields {} members).finish
  | .array items => decodePositional items
  | .flawed view => decode view
  | .broken => .error .notJson
  | _ => .error .invalidType

def decodePositional : List Json → Decoded Descriptor
  | [] => .error .invalidLength
  | [name] => do
    let _ ← decodeString name
    throw .invalidLength
  | [name, type] => do
    return mk (← decodeString name) (← TypeName.decode type) [] false OrderedMap.empty
  | name :: type :: typeParameters :: rest => do
    let name ← decodeString name
    let type ← TypeName.decode type
    decodeTail name type (← decodeArray typeParameters) rest

def decodeArray : Json → Decoded (List Descriptor)
  | .array items => decodeAll items
  | .flawed view => decodeArray view
  | .broken => .error .notJson
  | _ => .error .invalidType

def decodeAll : List Json → Decoded (List Descriptor)
  | [] => .ok []
  | json :: rest => do
    let d ← decode json
    return d :: (← decodeAll rest)

/-- Takes the members of an object, in their order, into the fields read so far. -/
def decodeFields (found : Found) : List (String × Json) → Decoded Found
  | [] => .ok found
  | (key, json) :: rest => do
    let found ←
      if key = "name" then do
        pure { found with name := ← once key found.name decodeString json }
      else if key = "type" then do
        pure { found with type := ← once key found.type TypeName.decode json }
      else if key = "type_parameters" then
        match found.typeParameters with
        | some _ => throw (.duplicateField key)
        | none => do pure { found with typeParameters := some (← decodeArray json) }
      else if key = "nullable" then do
        pure { found with nullable := ← once key found.nullable decodeBool json }
      else if key = "annotation_metadata" then do
        pure { found with annotations := ← once key found.annotations Annotations.decode json }
      else do
        skip json
        pure found
    decodeFields found rest

end

end Descriptor

end BeanDispatch
