import BeanDispatch.Signature

/-! Methods found by a search: the class or interface they are called on, their signature, and which
of the two it is. -/

namespace BeanDispatch

/-- A method found by name and parameter types. -/
structure LocatedMethod where
  declaring : String
  signature : Signature
  viaInterface : Bool
deriving DecidableEq

def LocatedMethod.text (m : LocatedMethod) : String := m.declaring ++ "." ++ m.signature.text

end BeanDispatch
