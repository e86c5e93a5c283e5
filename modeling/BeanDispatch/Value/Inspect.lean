import BeanDispatch.Signature
import BeanDispatch.Text.Quoted
import BeanDispatch.Value

/-! Inspection: the full structure of a value as a text for developers. A constructor is written
with its arguments in round brackets or, where they have names, with a list of `name: value` in
braces; strings are quoted and floating-point numbers always look like such. -/

namespace BeanDispatch

namespace Inspect

def applied (constructor : String) (arguments : List String) : String :=
  constructor ++ "(" ++ ", ".intercalate arguments ++ ")"

/-- A constructor with named arguments; there is at least one. -/
def record (constructor : String) (fields : List (String × String)) : String :=
  constructor ++ " \x7b " ++ ", ".intercalate (fields.map fun f => f.1 ++ ": " ++ f.2) ++ " \x7d"

def list (items : List String) : String := "[" ++ ", ".intercalate items ++ "]"

def boolean (b : Bool) : String := if b then "true" else "false"

def option (item : Option String) : String :=
  match item with
  | some text => applied "Some" [text]
  | none => "None"

def entries (items : List (String × String)) : String :=
  "\x7b" ++ ", ".intercalate (items.map fun e => Text.quoted e.1 ++ ": " ++ e.2) ++ "\x7d"

end Inspect

open Inspect

def TypeName.inspect : TypeName → String
  | void => "Void"
  | primitive .boolean => "Primitive(Boolean)"
  | primitive .int => "Primitive(Int)"
  | primitive .long => "Primitive(Long)"
  | primitive .double => "Primitive(Double)"
  | named name => applied "Class" [Text.quoted name]

def Signature.inspect (s : Signature) : String :=
  record "MethodSignature"
    [("name", Text.quoted s.name), ("params", list (s.params.map TypeName.inspect)),
      ("return_type", s.result.inspect)]

/-- `objects` shows what a reference points to. -/
def Value.inspect (objects : Ref → String) : Value → String
  | null => "Null"
  | bool b => applied "Bool" [boolean b]
  | int n => applied "Int" [toString n.toInt]
  | long n => applied "Long" [toString n.toInt]
  | double x => applied "Double" [Double.inspected.text x]
  | str s => applied "Str" [Text.quoted s]
  | object ref => applied "Object" [objects ref]

def Slot.inspect (objects : Ref → String) : Slot → String
  | bool b => applied "Bool" [boolean b]
  | int n => applied "Int" [toString n.toInt]
  | long n => applied "Long" [toString n.toInt]
  | double x => applied "Double" [Double.inspected.text x]
  | ref value => applied "Ref" [value.inspect objects]

end BeanDispatch
