import BeanDispatch.Annotations
import BeanDispatch.TypeName

/-! Descriptors of properties, parameters and results: a name, a declared type with its type
parameters, whether null is admitted, and annotations. A result has the empty name. -/

namespace BeanDispatch

/-- What is declared about one property, parameter or result. -/
inductive Descriptor
  | mk (name : String) (type : TypeName) (typeParameters : List Descriptor) (nullable : Bool)
      (annotations : Annotations)

namespace Descriptor

def name : Descriptor → String
  | mk name _ _ _ _ => name

def type : Descriptor → TypeName
  | mk _ type _ _ _ => type

def typeParameters : Descriptor → List Descriptor
  | mk _ _ typeParameters _ _ => typeParameters

def nullable : Descriptor → Bool
  | mk _ _ _ nullable _ => nullable

def annotations : Descriptor → Annotations
  | mk _ _ _ _ annotations => annotations

/-- A descriptor without a name, as results have. -/
def ofType (type : TypeName) : Descriptor := mk "" type [] false OrderedMap.empty

/-- The type parameters by variable name, in order of declaration. -/
def typeVariables (d : Descriptor) : OrderedMap Descriptor :=
  OrderedMap.ofList (d.typeParameters.map fun p => (p.name, p))

/-- The type, the types of its parameters in angle brackets, and the name if there is one. -/
def text (d : Descriptor) : String :=
  let arguments :=
    if d.typeParameters.isEmpty then ""
    else "<" ++ ", ".intercalate (d.typeParameters.map fun p => p.type.text) ++ ">"
  let label := if d.name.isEmpty then "" else " " ++ d.name
  d.type.text ++ arguments ++ label

end Descriptor

end BeanDispatch
