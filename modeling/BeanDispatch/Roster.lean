import BeanDispatch.Script

/-! Numbers for objects. Messages name the objects they speak of, by names that say nothing about
where an object lies in the heap. A heap with a roster keeps, in its object 0, the objects that have
a number, in the order in which they got it; the first has number 1. An object is announced to the
roster by the script that makes it, or entered when it is first shown, and is named by its class and
its number. -/

namespace BeanDispatch.Roster

/-- The roster itself. -/
def self : Ref := ⟨0, ""⟩

def start : Heap := (Heap.empty.allocate self.cls OrderedMap.empty).2

/-- Gives an object the next number, unless it has one. -/
def enter (h : Heap) (ref : Ref) : Heap :=
  ⟨h.objects.modify self.id fun roster => roster.insert (toString ref.id) (.ref (.object ref))⟩

def observer : Script.Observer := fun ref => modify fun h => enter h ref

/-- The number of an object; 0 if it has none. -/
def number (h : Heap) (ref : Ref) : Nat :=
  match (h.fields self).keys.idxOf? (toString ref.id) with
  | some position => position + 1
  | none => 0

def label (h : Heap) (ref : Ref) : String := ref.cls ++ "@#" ++ toString (number h ref)

end BeanDispatch.Roster
