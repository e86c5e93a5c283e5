import BeanDispatch.Introspection.Compiled

/-! Inspection of generated types and of the members of an introspection. -/

namespace BeanDispatch

open Inspect

def CompiledType.inspect (g : CompiledType) : String :=
  record "CompiledType"
    [("this_type", Text.quoted g.routines.thisType),
      ("properties", toString g.propertyIndex.size), ("interceptable", boolean g.interceptable)]

namespace Introspection

variable {γ : Type}

def inspectProperty (i : Introspection γ) (p : Property) : String :=
  record "PropertyHandle"
    [("bean_type", Text.quoted i.beanType), ("type", p.descriptor.type.inspect),
      ("name", Text.quoted p.name)]

def inspectMethod (i : Introspection γ) (m : BeanMethod) : String :=
  record "MethodHandle"
    [("bean_type", Text.quoted i.beanType), ("name", Text.quoted m.name),
      ("index", toString m.index.toNat)]

end Introspection

end BeanDispatch
