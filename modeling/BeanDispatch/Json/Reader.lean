import BeanDispatch.Json.Numeral
import BeanDispatch.Json.Tree

/-! Reading JSON texts. Every text yields a tree: where it stops being JSON the tree says so. A
string with half of a surrogate pair, a number beyond the range of floating point and an array or
object inside 127 others are flawed, for such a text can be skipped and not read. -/

namespace BeanDispatch.Json

/-- A text without the white space it begins with. -/
def afterSpace (cs : List Char) : List Char :=
  cs.dropWhile fun c => c = ' ' || c = '\n' || c = '\t' || c = '\r'

/-! ### Strings -/

/-- A part of a string: a character, or a code unit written as four hexadecimal digits. -/
inductive Piece
  | char (c : Char)
  | unit (n : Nat)

def hexValue? (c : Char) : Option Nat :=
  if '0' ≤ c ∧ c ≤ '9' then some (c.toNat - '0'.toNat)
  else if 'a' ≤ c ∧ c ≤ 'f' then some (c.toNat - 'a'.toNat + 10)
  else if 'A' ≤ c ∧ c ≤ 'F' then some (c.toNat - 'A'.toNat + 10)
  else none

def codeUnit? (a b c d : Char) : Option Nat := do
  return (((← hexValue? a) * 16 + (← hexValue? b)) * 16 + (← hexValue? c)) * 16 + (← hexValue? d)

/-- The character that a one-letter escape stands for. -/
def escaped? : Char → Option Char
  | '"' => some '"'
  | '\\' => some '\\'
  | '/' => some '/'
  | 'b' => some '\x08'
  | 'f' => some '\x0c'
  | 'n' => some '\n'
  | 'r' => some '\r'
  | 't' => some '\t'
  | _ => none

/-- The parts of a string up to its closing quote, latest first, and the text behind it. -/
def pieces (acc : List Piece) : List Char → Option (List Piece × List Char)
  | [] => none
  | '"' :: rest => some (acc, rest)
  | '\\' :: 'u' :: a :: b :: c :: d :: rest =>
    match codeUnit? a b c d with
    | some n => pieces (.unit n :: acc) rest
    | none => none
  | '\\' :: c :: rest =>
    match escaped? c with
    | some e => pieces (.char e :: acc) rest
    | none => none
  | c :: rest => if c.toNat < 0x20 || c = '\\' then none else pieces (.char c :: acc) rest

def isHighSurrogate (n : Nat) : Bool := decide (0xd800 ≤ n ∧ n < 0xdc00)

def isLowSurrogate (n : Nat) : Bool := decide (0xdc00 ≤ n ∧ n < 0xe000)

/-- The characters of a string, unless a surrogate stands without its partner. -/
def joined? (acc : List Char) : List Piece → Option (List Char)
  | [] => some acc.reverse
  | .char c :: rest => joined? (c :: acc) rest
  | .unit high :: .unit low :: rest =>
    if isHighSurrogate high then
      if isLowSurrogate low then
        joined? (Char.ofNat (0x10000 + (high - 0xd800) * 0x400 + (low - 0xdc00)) :: acc) rest
      else none
    else if isLowSurrogate high then none
    else joined? (Char.ofNat high :: acc) (.unit low :: rest)
  | .unit n :: rest =>
    if isHighSurrogate n || isLowSurrogate n then none else joined? (Char.ofNat n :: acc) rest

/-- The string after an opening quote, `none` inside if it is unreadable, and the text behind. -/
def string? (cs : List Char) : Option (Option String × List Char) :=
  (pieces [] cs).map fun p => ((joined? [] p.1.reverse).map String.ofList, p.2)

/-! ### Values -/

/-- What is read from the start of a text, and the rest of it, `none` behind a broken place. -/
abbrev Outcome := Json × Option (List Char)

def literal (word : List Char) (json : Json) (cs : List Char) : Outcome :=
  if word.isPrefixOf cs then (json, some (cs.drop word.length)) else (broken, none)

/-- Containers deeper than this are flawed. -/
def depthLimit : Nat := 127

/-- A container at this depth as a reader finds it; `unread` is what one too deep looks like. -/
def limited (depth : Nat) (unread : Json) (outcome : Outcome) : Outcome :=
  if depth ≤ depthLimit then outcome
  else match outcome.2 with
    | some rest => (flawed unread, some rest)
    | none => (unread, none)

mutual

/-- A value; `depth` is the number of containers around it. -/
def value (fuel depth : Nat) (text : List Char) : Outcome :=
  match fuel, afterSpace text with
  | 0, _ => (broken, none)
  | _, [] => (broken, none)
  | fuel + 1, c :: rest =>
    match c with
    | 'n' => literal ['u', 'l', 'l'] null rest
    | 't' => literal ['r', 'u', 'e'] (bool true) rest
    | 'f' => literal ['a', 'l', 's', 'e'] (bool false) rest
    | '"' =>
      match string? rest with
      | some (some s, after) => (str s, some after)
      | some (none, after) => (flawed broken, some after)
      | none => (broken, none)
    | '[' =>
      limited (depth + 1) (array [broken]) <|
        match afterSpace rest with
        | ']' :: after => (array [], some after)
        | _ => items fuel (depth + 1) [] rest
    | '\x7b' =>
      limited (depth + 1) (object [("", broken)]) <|
        match afterSpace rest with
        | '\x7d' :: after => (object [], some after)
        | _ => members fuel (depth + 1) [] none rest
    | _ =>
      match numeral? (c :: rest) with
      | some (n, after) =>
        let json := number (String.ofList ((c :: rest).take (rest.length + 1 - after.length)))
        (if n.tooLarge then flawed broken else json, some after)
      | none => (broken, none)

/-- The items of an array from here on; `done` holds the earlier ones, latest first. -/
def items (fuel depth : Nat) (done : List Json) (text : List Char) : Outcome :=
  match fuel with
  | 0 => (array (broken :: done).reverse, none)
  | fuel + 1 =>
    match value fuel depth text with
    | (item, none) => (array (item :: done).reverse, none)
    | (item, some after) =>
      match afterSpace after with
      | ',' :: rest => items fuel depth (item :: done) rest
      | ']' :: rest => (array (item :: done).reverse, some rest)
      | _ => (array (broken :: item :: done).reverse, none)

/-- The members of an object from here on; `done` holds the earlier ones, latest first, and
`seen` the members before the first unreadable key. -/
def members (fuel depth : Nat) (done : List (String × Json))
    (seen : Option (List (String × Json))) (text : List Char) : Outcome :=
  let brokenOff := (object ((("", broken) :: seen.getD done).reverse), none)
  match fuel, afterSpace text with
  | fuel + 1, '"' :: text =>
    match string? text with
    | none => brokenOff
    | some (key?, after) =>
      let seen := match key? with
        | some _ => seen
        | none => some (seen.getD done)
      let key := key?.getD ""
      match afterSpace after with
      | ':' :: text =>
        let read := value fuel depth text
        let done := (key, read.1) :: done
        let broken := fun members : List (String × Json) =>
          (object ((("", broken) :: members).reverse), none)
        match read.2 with
        | none =>
          match seen with
          | some members => broken members
          | none => (object done.reverse, none)
        | some after =>
          match afterSpace after with
          | ',' :: rest => members fuel depth done seen rest
          | '\x7d' :: rest =>
            match seen with
            | some members => (flawed (broken members).1, some rest)
            | none => (object done.reverse, some rest)
          | _ => broken (seen.getD done)
      | _ =>
        match seen with
        | some _ => (object ((("", broken) :: seen.getD done).reverse), none)
        | none => (object (((key, broken) :: done).reverse), none)
  | _, _ => brokenOff

end

/-- A whole text: the tree of the value it begins with, and whether only white space follows. -/
def document (text : String) : Json × Bool :=
  let cs := text.toList
  match value (2 * cs.length + 2) 0 cs with
  | (json, some rest) => (json, (afterSpace rest).isEmpty)
  | (json, none) => (json, false)

end BeanDispatch.Json
