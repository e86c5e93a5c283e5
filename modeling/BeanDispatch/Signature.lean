import BeanDispatch.TypeName

/-! Method signatures: a name, the parameter types in order, and the result type. Two methods are
the same member when name and parameter types agree, whatever they return. -/

namespace BeanDispatch

/-- A method's name, ordered parameter types and result type. -/
structure Signature where
  name : String
  params : List TypeName
  result : TypeName
deriving DecidableEq

/-- Type names between commas, as parameter lists are written. -/
def typeList (types : List TypeName) : String :=
  ", ".intercalate (types.map TypeName.text)

namespace Signature

def arity (s : Signature) : Nat := s.params.length

def returnsVoid (s : Signature) : Bool := s.result.isVoid

def renamed (s : Signature) (name : String) : Signature := { s with name := name }

def text (s : Signature) : String :=
  s.name ++ "(" ++ typeList s.params ++ "): " ++ s.result.text

end Signature

end BeanDispatch
