import BeanDispatch.Json.Decode
import BeanDispatch.Signature

/-! The JSON forms of types and signatures. A type is written as its name, so a class named like a
keyword is read back as the keyword; a signature is a record whose parameters default to none and
whose result defaults to `void`. -/

namespace BeanDispatch

open Json

def TypeName.encode (type : TypeName) : Json := .str type.text

def TypeName.decode (json : Json) : Decoded TypeName := (decodeString json).map TypeName.ofText

namespace Signature

def encode (s : Signature) : Json :=
  .object [("name", .str s.name), ("params", .array (s.params.map TypeName.encode)),
    ("return_type", s.result.encode)]

structure Found where
  name : Option String := none
  params : Option (List TypeName) := none
  result : Option TypeName := none

def decoder : RecordDecoder Found Signature where
  start := {}
  field found key json :=
    if key = "name" then do return { found with name := ← once key found.name decodeString json }
    else if key = "params" then do
      return { found with params := ← once key found.params (decodeList TypeName.decode) json }
    else if key = "return_type" then do
      return { found with result := ← once key found.result TypeName.decode json }
    else do
      skip json
      return found
  finish found := do
    return ⟨← required "name" found.name, found.params.getD [], found.result.getD .void⟩
  positional := do
    let name ← requiredItem decodeString
    let params ← optionalItem [] (decodeList TypeName.decode)
    let result ← optionalItem .void TypeName.decode
    return ⟨name, params, result⟩

/-- `surplus` is the problem of a signature written as an array with items to spare. -/
def decode (surplus : DecodeError) (json : Json) : Decoded Signature :=
  decoder.decode surplus json

end Signature

end BeanDispatch
