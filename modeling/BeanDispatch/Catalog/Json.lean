import BeanDispatch.Catalog
import BeanDispatch.Json.Printer
import BeanDispatch.Signature.Json

/-! The JSON form of catalogs. A target is a record with a `kind` among its members that says what
it is. The kind may stand anywhere, so the whole target is read before its other fields are looked
at; as an array the target has its kind first. -/

namespace BeanDispatch

open Json

namespace DispatchStyle

def keyword : DispatchStyle → String
  | one => "one"
  | multi => "multi"
  | both => "both"

def ofKeyword (text : String) : Decoded DispatchStyle :=
  if text = "one" then .ok one
  else if text = "multi" then .ok multi
  else if text = "both" then .ok both
  else .error (.unknownVariant text ["one", "multi", "both"])

def isUnit : Json → Bool
  | .null => true
  | .object [] => true
  | _ => false

/-- The keyword as a string, or as the one key of an object that holds nothing. -/
def decode : Json → Decoded DispatchStyle
  | .str text => ofKeyword text
  | .object [(text, content)] => do
    let style ← ofKeyword text
    if isUnit content then return style else throw .invalidType
  | .object _ => .error .invalidValue
  | _ => .error .invalidType

end DispatchStyle

namespace Target

inductive Kind
  | fieldGet
  | fieldSet
  | method
  | intercepted

namespace Kind

def keyword : Kind → String
  | fieldGet => "field_get"
  | fieldSet => "field_set"
  | method => "method"
  | intercepted => "intercepted_method"

def ofKeyword (text : String) : Decoded Kind :=
  if text = "field_get" then .ok fieldGet
  else if text = "field_set" then .ok fieldSet
  else if text = "method" then .ok method
  else if text = "intercepted_method" then .ok intercepted
  else .error (.unknownVariant text ["field_get", "field_set", "method", "intercepted_method"])

def decode (json : Json) : Decoded Kind := do ofKeyword (← decodeString json)

end Kind

def encodeField (kind : Kind) (f : FieldTarget) : Json :=
  .object [("kind", .str kind.keyword), ("owner", .str f.owner), ("name", .str f.name),
    ("type", f.type.encode)]

/-- The members shared by plain and intercepted methods. -/
def encodeMethod (kind : Kind) (m : MethodTarget) (more : List (String × Json)) : Json :=
  .object ([("kind", .str kind.keyword), ("declaring", .str m.declaring),
    ("signature", m.signature.encode), ("interface", .bool m.viaInterface)] ++ more)

def encode : Target → Json
  | fieldGet f => encodeField .fieldGet f
  | fieldSet f => encodeField .fieldSet f
  | method m style => encodeMethod .method m [("style", .str style.keyword)]
  | intercepted t =>
    encodeMethod .intercepted t.method
      [("proxy_type", .str t.proxy), ("bridge_method", .str t.bridge),
        ("this_type", .str t.thisType)]

/-- The fields of any kind of target read so far. -/
structure Found where
  owner : Option String := none
  name : Option String := none
  type : Option TypeName := none
  declaring : Option String := none
  signature : Option Signature := none
  viaInterface : Option Bool := none
  style : Option DispatchStyle := none
  proxy : Option String := none
  bridge : Option String := none
  thisType : Option String := none

def fieldDecoder (make : FieldTarget → Target) : RecordDecoder Found Target where
  start := {}
  field found key json :=
    if key = "owner" then do return { found with owner := ← once key found.owner decodeString json }
    else if key = "name" then do
      return { found with name := ← once key found.name decodeString json }
    else if key = "type" then do
      return { found with type := ← once key found.type TypeName.decode json }
    else .ok found
  finish found := do
    return make ⟨← required "owner" found.owner, ← required "name" found.name,
      ← required "type" found.type⟩
  positional := do
    return make ⟨← requiredItem decodeString, ← requiredItem decodeString,
      ← requiredItem TypeName.decode⟩

def methodDecoder : RecordDecoder Found Target where
  start := {}
  field found key json :=
    if key = "declaring" then do
      return { found with declaring := ← once key found.declaring decodeString json }
    else if key = "signature" then do
      return { found with
        signature := ← once key found.signature (Signature.decode .invalidLength) json }
    else if key = "interface" then do
      return { found with viaInterface := ← once key found.viaInterface decodeBool json }
    else if key = "style" then do
      return { found with style := ← once key found.style DispatchStyle.decode json }
    else .ok found
  finish found := do
    let declaring ← required "declaring" found.declaring
    let signature ← required "signature" found.signature
    return .method ⟨declaring, signature, found.viaInterface.getD false⟩ (found.style.getD .multi)
  positional := do
    let declaring ← requiredItem decodeString
    let signature ← requiredItem (Signature.decode .invalidLength)
    let viaInterface ← optionalItem false decodeBool
    let style ← optionalItem .multi DispatchStyle.decode
    return .method ⟨declaring, signature, viaInterface⟩ style

def interceptedDecoder : RecordDecoder Found Target where
  start := {}
  field found key json :=
    if key = "declaring" then do
      return { found with declaring := ← once key found.declaring decodeString json }
    else if key = "signature" then do
      return { found with
        signature := ← once key found.signature (Signature.decode .invalidLength) json }
    else if key = "interface" then do
      return { found with viaInterface := ← once key found.viaInterface decodeBool json }
    else if key = "proxy_type" then do
      return { found with proxy := ← once key found.proxy decodeString json }
    else if key = "bridge_method" then do
      return { found with bridge := ← once key found.bridge decodeString json }
    else if key = "this_type" then do
      return { found with thisType := ← once key found.thisType decodeString json }
    else .ok found
  finish found := do
    let declaring ← required "declaring" found.declaring
    let signature ← required "signature" found.signature
    return .intercepted
      { method := ⟨declaring, signature, found.viaInterface.getD false⟩
        proxy := ← required "proxy_type" found.proxy
        bridge := ← required "bridge_method" found.bridge
        thisType := ← required "this_type" found.thisType }
  positional := do
    let declaring ← requiredItem decodeString
    let signature ← requiredItem (Signature.decode .invalidLength)
    let viaInterface ← optionalItem false decodeBool
    let proxy ← requiredItem decodeString
    let bridge ← requiredItem decodeString
    let thisType ← requiredItem decodeString
    return .intercepted ⟨⟨declaring, signature, viaInterface⟩, proxy, bridge, thisType⟩

def decodeContent (kind : Kind) (content : Json) : Decoded Target :=
  let decoder := match kind with
    | .fieldGet => fieldDecoder .fieldGet
    | .fieldSet => fieldDecoder .fieldSet
    | .method => methodDecoder
    | .intercepted => interceptedDecoder
  decoder.decode .invalidLength content

/-- Reads a part of a target through without looking at what it describes. -/
def readThrough (json : Json) : Decoded Unit :=
  if json.readable then .ok () else .error .notJson

/-- Takes the kind out of the members of a target; the others follow in order. -/
def splitKind (kind : Option Kind) (content : List (String × Json)) :
    List (String × Json) → Decoded (Option Kind × List (String × Json))
  | [] => .ok (kind, content.reverse)
  | (key, json) :: rest =>
    if key = "kind" then do
      splitKind (← once key kind Kind.decode json) content rest
    else do
      readThrough json
      splitKind kind ((key, json) :: content) rest

def decode : Json → Decoded Target
  | .object members => do
    let (kind, content) ← splitKind none [] members
    decodeContent (← required "kind" kind) (.object content)
  | .array [] => .error (.missingField "kind")
  | .array (kind :: content) => do
    let kind ← Kind.decode kind
    content.forM readThrough
    decodeContent kind (.array content)
  | .flawed view => decode view
  | .broken => .error .notJson
  | _ => .error .invalidType

end Target

namespace Catalog

def encode (c : Catalog) : Json :=
  .object [("this_type", .str c.thisType), ("targets", .array (c.targets.map Target.encode))]

structure Found where
  thisType : Option String := none
  targets : Option (List Target) := none

def decoder : RecordDecoder Found Catalog where
  start := {}
  field found key json :=
    if key = "this_type" then do
      return { found with thisType := ← once key found.thisType decodeString json }
    else if key = "targets" then do
      return { found with targets := ← once key found.targets (decodeList Target.decode) json }
    else do
      skip json
      return found
  finish found := do
    return ⟨← required "this_type" found.thisType, found.targets.getD []⟩
  positional := do
    let thisType ← requiredItem decodeString
    let targets ← optionalItem [] (decodeList Target.decode)
    return ⟨thisType, targets⟩

def decode (json : Json) : Decoded Catalog := decoder.decode .notJson json

/-- The catalog as a text of several lines. -/
def description (c : Catalog) : String := c.encode.pretty

def ofDescription (text : String) : Decoded Catalog := decodeText decode text

/-- What is said of a description that is not one. -/
def descriptionError (error : DecodeError) : String :=
  "invalid catalog description: " ++ error.message

end Catalog

end BeanDispatch
