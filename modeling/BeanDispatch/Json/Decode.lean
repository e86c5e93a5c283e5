import BeanDispatch.Json.Reader

/-! Decoding trees into the data they describe. A decoder walks the tree in the order of the text
and stops at the first problem. A record may be written as an object, whose unknown members are
skipped whatever they hold, or as an array of its fields in order of declaration, where fields with
a default may be left off the end. A member that is present must fit its type: null does not stand
for an absent one. -/

namespace BeanDispatch.Json

/-- Why a text does not describe a value. -/
inductive DecodeError
  | notJson
  | missingField (name : String)
  | duplicateField (name : String)
  | unknownVariant (name : String) (expected : List String)
  | invalidType
  | invalidLength
  | invalidValue
deriving DecidableEq

/-- A name between backquotes. -/
def DecodeError.quotedName (name : String) : String := "\x60" ++ name ++ "\x60"

def DecodeError.message : DecodeError → String
  | notJson => ""
  | missingField name => "missing field " ++ quotedName name
  | duplicateField name => "duplicate field " ++ quotedName name
  | unknownVariant name expected =>
    "unknown variant " ++ quotedName name ++ ", expected one of " ++
      ", ".intercalate (expected.map quotedName)
  | invalidType => "invalid type"
  | invalidLength => "invalid length"
  | invalidValue => "invalid value"

abbrev Decoded := Except DecodeError

/-! ### Plain data -/

def decodeString : Json → Decoded String
  | str s => .ok s
  | flawed view => decodeString view
  | broken => .error .notJson
  | _ => .error .invalidType

def decodeBool : Json → Decoded Bool
  | bool b => .ok b
  | flawed view => decodeBool view
  | broken => .error .notJson
  | _ => .error .invalidType

def decodeItems : Json → Decoded (List Json)
  | array items => .ok items
  | flawed view => decodeItems view
  | broken => .error .notJson
  | _ => .error .invalidType

def decodeMembers : Json → Decoded (List (String × Json))
  | object members => .ok members
  | flawed view => decodeMembers view
  | broken => .error .notJson
  | _ => .error .invalidType

def decodeList {α : Type} (decode : Json → Decoded α) (json : Json) : Decoded (List α) := do
  (← decodeItems json).mapM decode

/-- A map from strings; a repeated key keeps its first place and takes its last value. -/
def decodeMap {α : Type} (decode : Json → Decoded α) (json : Json) :
    Decoded (List (String × α)) := do
  (← decodeMembers json).mapM fun member => return (member.1, ← decode member.2)

/-! ### Records -/

/-- Passes over a member that is not asked for. -/
def skip (json : Json) : Decoded Unit :=
  if json.skippable then .ok () else .error .notJson

/-- Decodes the first occurrence of a field and refuses a second one. -/
def once {α : Type} (name : String) (found : Option α) (decode : Json → Decoded α) (json : Json) :
    Decoded (Option α) :=
  match found with
  | some _ => .error (.duplicateField name)
  | none => (decode json).map some

def required {α : Type} (name : String) : Option α → Decoded α
  | some a => .ok a
  | none => .error (.missingField name)

/-- Decoding an array item by item. -/
abbrev Positional := StateT (List Json) Decoded

def item? {α : Type} (decode : Json → Decoded α) : Positional (Option α) := do
  match ← get with
  | [] => return none
  | json :: rest =>
    let a ← decode json
    set rest
    return some a

def requiredItem {α : Type} (decode : Json → Decoded α) : Positional α := do
  match ← item? decode with
  | some a => return a
  | none => throw .invalidLength

def optionalItem {α : Type} (fallback : α) (decode : Json → Decoded α) : Positional α := do
  return (← item? decode).getD fallback

/-- How to decode a record: `field` takes one member into the fields found so far, `finish` makes
the record when the object ends, and `positional` decodes the items of an array. -/
structure RecordDecoder (σ α : Type) where
  start : σ
  field : σ → String → Json → Decoded σ
  finish : σ → Decoded α
  positional : Positional α

/-- A record; `surplus` is the problem of an array with items to spare. -/
def RecordDecoder.decode {σ α : Type} (d : RecordDecoder σ α) (surplus : DecodeError) :
    Json → Decoded α
  | object members => do
    d.finish (← members.foldlM (fun found member => d.field found member.1 member.2) d.start)
  | array items => do
    let (a, rest) ← d.positional.run items
    if rest.isEmpty then return a else throw surplus
  | flawed view => d.decode surplus view
  | broken => .error .notJson
  | _ => .error .invalidType

/-- Decodes a whole text, which holds one value and nothing after it. -/
def decodeText {α : Type} (decode : Json → Decoded α) (text : String) : Decoded α := do
  let (json, alone) := document text
  let a ← decode json
  if alone then return a else throw .notJson

end BeanDispatch.Json
