import BeanDispatch.Json.Tree

/-! Written JSON, compact or with one member or item a line. In strings the quote, the backslash and
the control characters are escaped, the latter by letter where there is one. -/

namespace BeanDispatch.Json

def hexDigit (n : Nat) : Char := Nat.digitChar (n % 16)

/-- A character inside quotes. -/
def writtenChar (c : Char) : List Char :=
  if c = '"' then ['\\', '"']
  else if c = '\\' then ['\\', '\\']
  else if c = '\x08' then ['\\', 'b']
  else if c = '\t' then ['\\', 't']
  else if c = '\n' then ['\\', 'n']
  else if c = '\x0c' then ['\\', 'f']
  else if c = '\r' then ['\\', 'r']
  else if c.toNat < 0x20 then ['\\', 'u', '0', '0', hexDigit (c.toNat / 16), hexDigit c.toNat]
  else [c]

def writtenString (s : String) : String :=
  "\"" ++ String.ofList (s.toList.flatMap writtenChar) ++ "\""

/-- The text without any space; what is no JSON writes nothing. -/
def compact : Json → String
  | null => "null"
  | bool b => if b then "true" else "false"
  | number text => text
  | str s => writtenString s
  | array items => "[" ++ ",".intercalate (writtenItems items) ++ "]"
  | object members => "\x7b" ++ ",".intercalate (writtenMembers members) ++ "\x7d"
  | broken => ""
  | flawed _ => ""
where
  writtenItems : List Json → List String
    | [] => []
    | j :: rest => j.compact :: writtenItems rest
  writtenMembers : List (String × Json) → List String
    | [] => []
    | (key, j) :: rest => (writtenString key ++ ":" ++ j.compact) :: writtenMembers rest

/-- Bracketed parts, each on a line of its own two spaces further in. -/
def block (opening closing indent : String) (parts : List String) : String :=
  if parts.isEmpty then opening ++ closing
  else
    let inner := indent ++ "  "
    opening ++ "\n" ++ inner ++ (",\n" ++ inner).intercalate parts ++ "\n" ++ indent ++ closing

/-- The text over several lines, the first of them after `indent`. -/
def prettyFrom (indent : String) : Json → String
  | array items => block "[" "]" indent (blockItems (indent ++ "  ") items)
  | object members => block "\x7b" "\x7d" indent (blockMembers (indent ++ "  ") members)
  | json => json.compact
where
  blockItems (indent : String) : List Json → List String
    | [] => []
    | j :: rest => prettyFrom indent j :: blockItems indent rest
  blockMembers (indent : String) : List (String × Json) → List String
    | [] => []
    | (key, j) :: rest =>
      (writtenString key ++ ": " ++ prettyFrom indent j) :: blockMembers indent rest

def pretty (json : Json) : String := prettyFrom "" json

end BeanDispatch.Json
