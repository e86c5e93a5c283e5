import BeanDispatch.OrderedMap
import BeanDispatch.Value

/-! The heap of objects and the actions that run on it. An object is its fields in layout order; a
new object takes the next free number, so older objects keep theirs. Fields are never added to or
taken from an object. An action may fail, and what it stored before it failed stays stored: the heap
comes out of a failing run as well. `fields_allocate` and `field?_store?` say what the two effects on
a heap do to the fields that can be read from it. -/

namespace BeanDispatch

/-- All objects, each as its fields in layout order, by number. -/
structure Heap where
  objects : Array (OrderedMap Slot)

namespace Heap

def empty : Heap := ⟨#[]⟩

def fields (h : Heap) (ref : Ref) : OrderedMap Slot := h.objects[ref.id]?.getD OrderedMap.empty

def field? (h : Heap) (ref : Ref) (name : String) : Option Slot := (h.fields ref).get? name

def hasField (h : Heap) (ref : Ref) (name : String) : Bool := (h.fields ref).contains name

/-- Makes an object of a class with these fields. -/
def allocate (h : Heap) (cls : String) (fields : OrderedMap Slot) : Ref × Heap :=
  (⟨h.objects.size, cls⟩, ⟨h.objects.push fields⟩)

/-- Stores into a field that the object has; without such a field there is no result. -/
def store? (h : Heap) (ref : Ref) (name : String) (slot : Slot) : Option Heap :=
  ((h.fields ref).replace? name slot).map fun fields =>
    ⟨h.objects.setIfInBounds ref.id fields⟩

theorem fields_allocate (h : Heap) (cls : String) (fields : OrderedMap Slot) (ref : Ref) :
    (h.allocate cls fields).2.fields ref =
      if ref.id = h.objects.size then fields else h.fields ref := by
  simp only [allocate, Heap.fields, Array.getElem?_push]
  split <;> rfl

theorem hasField_iff (h : Heap) (ref : Ref) (name : String) :
    h.hasField ref name = true ↔ ∃ slot, h.field? ref name = some slot := by
  simp [hasField, field?, OrderedMap.contains, Option.isSome_iff_exists]

theorem store?_eq_none_iff (h : Heap) (ref : Ref) (name : String) (slot : Slot) :
    h.store? ref name slot = none ↔ h.field? ref name = none := by
  simp [store?, field?, OrderedMap.replace?, OrderedMap.contains, Option.isSome_iff_ne_none]

theorem fields_store? {h stored : Heap} {ref : Ref} {name : String} {slot : Slot}
    (done : h.store? ref name slot = some stored) (other : Ref) :
    stored.fields other =
      if other.id = ref.id then (h.fields ref).insert name slot else h.fields other := by
  simp only [store?, OrderedMap.replace?, Option.map_eq_some_iff, Option.ite_none_right_eq_some,
    Option.some.injEq] at done
  obtain ⟨fields, ⟨present, rfl⟩, rfl⟩ := done
  have known : ref.id < h.objects.size := by
    apply Classical.byContradiction
    intro unknown
    simp [Heap.fields, Array.getElem?_eq_none (Nat.le_of_not_lt unknown), OrderedMap.contains,
      OrderedMap.get?, OrderedMap.empty, lookupEntry] at present
  by_cases same : other.id = ref.id
  · simp [Heap.fields, same, known]
  · simp [Heap.fields, same, Ne.symm same]

theorem field?_store? {h stored : Heap} {ref : Ref} {name : String} {slot : Slot}
    (done : h.store? ref name slot = some stored) (other : Ref) (field : String) :
    stored.field? other field =
      if other.id = ref.id ∧ name = field then some slot else h.field? other field := by
  rw [field?, fields_store? done]
  by_cases same : other.id = ref.id
  · simp [same, field?, Heap.fields]
  · simp [same, field?]

end Heap

/-- A computation on the heap that may fail with an `ε`; its effects outlive its failure. -/
abbrev Action (ε α : Type) := ExceptT ε (StateM Heap) α

namespace Action

variable {ε : Type}

def field? (ref : Ref) (name : String) : Action ε (Option Slot) := do
  return (← getThe Heap).field? ref name

def allocate (cls : String) (fields : OrderedMap Slot) : Action ε Ref :=
  modifyGetThe Heap fun h => h.allocate cls fields

/-- Stores into a field; false, and nothing stored, if the object has no such field. -/
def store (ref : Ref) (name : String) (slot : Slot) : Action ε Bool :=
  modifyGetThe Heap fun h =>
    match h.store? ref name slot with
    | some stored => (true, stored)
    | none => (false, h)

/-- A result that needs no heap. -/
def ofExcept {α : Type} (result : Except ε α) : Action ε α := fun h => (result, h)

/-- Runs an action whose failures mean something wider here. -/
def widen {δ α : Type} (f : δ → ε) (action : Action δ α) : Action ε α :=
  ExceptT.adapt f action

end Action

end BeanDispatch
