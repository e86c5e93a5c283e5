import BeanDispatch.OrderedMap

/-! Annotations attached to types, members and arguments: for each annotation its members and their
values, all in order of declaration. What an annotation means is left to the reader of the data. -/

namespace BeanDispatch

/-- Member values by annotation name, then member name. -/
abbrev Annotations := OrderedMap (OrderedMap String)

namespace Annotations

/-- Adds an annotation; one of the same name is replaced as a whole and keeps its place. -/
def annotate (a : Annotations) (name : String) (members : List (String × String)) :
    Annotations :=
  a.insert name (OrderedMap.ofList members)

def value? (a : Annotations) (name member : String) : Option String :=
  (a.get? name).bind fun members => members.get? member

end Annotations

end BeanDispatch
