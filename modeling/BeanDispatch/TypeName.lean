/-! Types as members mention them: `void`, one of four primitives, or a class by name. A type is
written as its plain name, and the five lower-case keywords are reserved: `TypeName.ofText` reads
them as keywords, so a class of that name cannot be told from the keyword in written form. -/

namespace BeanDispatch

/-! ### The classes that every class table holds from the start -/

namespace Builtin

def object : String := "Object"

def string : String := "String"

def number : String := "Number"

def boolean : String := "Boolean"

def integer : String := "Integer"

def long : String := "Long"

def double : String := "Double"

end Builtin

/-- The kinds of value that fields and operands hold without a wrapper. -/
inductive Primitive
  | boolean
  | int
  | long
  | double
deriving DecidableEq

namespace Primitive

def keyword : Primitive → String
  | boolean => "boolean"
  | int => "int"
  | long => "long"
  | double => "double"

def wrapper : Primitive → String
  | boolean => Builtin.boolean
  | int => Builtin.integer
  | long => Builtin.long
  | double => Builtin.double

def ofKeyword? (text : String) : Option Primitive :=
  if text = "boolean" then some boolean
  else if text = "int" then some int
  else if text = "long" then some long
  else if text = "double" then some double
  else none

end Primitive

/-- A type by name. -/
inductive TypeName
  | void
  | primitive (kind : Primitive)
  | named (name : String)
deriving DecidableEq

namespace TypeName

/-- Reads a written type: the keywords first, any other text is the name of a class. -/
def ofText (text : String) : TypeName :=
  if text = "void" then void
  else match Primitive.ofKeyword? text with
    | some kind => primitive kind
    | none => named text

def text : TypeName → String
  | void => "void"
  | primitive kind => kind.keyword
  | named name => name

def isVoid : TypeName → Bool
  | void => true
  | _ => false

def primitive? : TypeName → Option Primitive
  | primitive kind => some kind
  | _ => none

/-- The type of the boxed values: a primitive becomes its wrapper class, all else stays. -/
def boxed : TypeName → TypeName
  | primitive kind => named kind.wrapper
  | type => type

end TypeName

end BeanDispatch
