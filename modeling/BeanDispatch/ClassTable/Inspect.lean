import BeanDispatch.ClassTable

/-! Inspection of objects and of class definitions. An object is shown with the contents of its
fields, and so are the objects they refer to. -/

namespace BeanDispatch

open Inspect

/-- Shows an object and what it refers to, at most `depth` objects deep. -/
def Heap.inspectTo (h : Heap) : Nat → Ref → String
  | 0, _ => "..."
  | depth + 1, ref =>
    let fields := (h.fields ref).entries.map fun field =>
      (field.1, field.2.inspect (h.inspectTo depth))
    applied "ObjRef" [record "Instance"
      [("class", Text.quoted ref.cls), ("fields", record "RwLock" [("data", entries fields)])]]

/-- Shows an object; a chain of references that meets no object twice is shown in full. -/
def Heap.inspect (h : Heap) (ref : Ref) : String := h.inspectTo (h.objects.size + 1) ref

def FieldDef.inspect (objects : Ref → String) (f : FieldDef) : String :=
  record "FieldDef" [("name", Text.quoted f.name), ("default", f.initial.inspect objects)]

def MethodDef.inspect (m : MethodDef) : String :=
  record "MethodDef"
    [("signature", m.signature.inspect), ("abstract", boolean m.body.isNone)]

def ClassDef.inspect (objects : Ref → String) (d : ClassDef) : String :=
  record "ClassDef"
    [("name", Text.quoted d.name), ("superclass", option (d.superclass.map Text.quoted)),
      ("interfaces", list (d.interfaces.map Text.quoted)),
      ("is_interface", boolean d.isInterface),
      ("fields", list (d.fields.map (FieldDef.inspect objects))),
      ("methods", list (d.methods.map MethodDef.inspect))]

end BeanDispatch
