import BeanDispatch.Double.Text
import BeanDispatch.TypeName

/-! Values and slots. A value is what callers pass and receive: null, a boxed primitive, a string or
an object. A slot is what fields and operands hold: an unboxed primitive or a reference to a value.
An object is referred to by its number on the heap together with its class, which never changes, so
questions of type need no heap. `unbox?_boxed` says that boxing an unboxed slot loses nothing. -/

namespace BeanDispatch

/-- An object: its number on the heap and its class. -/
structure Ref where
  id : Nat
  cls : String
deriving DecidableEq

/-- A value as callers see it. -/
inductive Value
  | null
  | bool (b : Bool)
  | int (n : Int32)
  | long (n : Int64)
  | double (x : Double)
  | str (s : String)
  | object (ref : Ref)
deriving DecidableEq

/-- The content of a field or an operand. -/
inductive Slot
  | bool (b : Bool)
  | int (n : Int32)
  | long (n : Int64)
  | double (x : Double)
  | ref (value : Value)
deriving DecidableEq

namespace Value

def isNull : Value → Bool
  | null => true
  | _ => false

/-- The class of a value; null answers `null`, which is no class. -/
def className : Value → String
  | null => "null"
  | bool _ => Builtin.boolean
  | int _ => Builtin.integer
  | long _ => Builtin.long
  | double _ => Builtin.double
  | str _ => Builtin.string
  | object ref => ref.cls

/-- Whether two values are equal: numbers and strings by content, floating point as numbers,
objects by identity. -/
def same : Value → Value → Bool
  | double x, double y => x.same y
  | v, w => v == w

/-- The value as a text for readers; `label` names an object. -/
def text (label : Ref → String) : Value → String
  | null => "null"
  | bool b => if b then "true" else "false"
  | int n => toString n.toInt
  | long n => toString n.toInt
  | double x => Double.plain.text x
  | str s => s
  | object ref => label ref

end Value

namespace Slot

def null : Slot := ref .null

/-- The content of a field of this type before anything is stored. -/
def initial (type : TypeName) : Slot :=
  match type.primitive? with
  | some .boolean => bool false
  | some .int => int 0
  | some .long => long 0
  | some .double => double Double.zero
  | none => null

/-- The primitive inside a boxed value, if it is of this kind. -/
def unbox? : Value → Primitive → Option Slot
  | .bool b, .boolean => some (bool b)
  | .int n, .int => some (int n)
  | .long n, .long => some (long n)
  | .double x, .double => some (double x)
  | _, _ => none

def primitive? : Slot → Option Primitive
  | bool _ => some .boolean
  | int _ => some .int
  | long _ => some .long
  | double _ => some .double
  | ref _ => none

/-- The content as a value, an unboxed primitive in its wrapper. -/
def boxed : Slot → Value
  | bool b => .bool b
  | int n => .int n
  | long n => .long n
  | double x => .double x
  | ref value => value

/-- Whether two slots are equal; references are compared as values. -/
def same : Slot → Slot → Bool
  | double x, double y => x.same y
  | ref v, ref w => v.same w
  | s, t => s == t

theorem unbox?_boxed {s : Slot} {kind : Primitive} (h : s.primitive? = some kind) :
    unbox? s.boxed kind = some s := by
  cases s <;> simp [primitive?] at h <;> subst h <;> rfl

theorem boxed_of_unbox? {v : Value} {kind : Primitive} {s : Slot} (h : unbox? v kind = some s) :
    s.boxed = v ∧ s.primitive? = some kind := by
  cases v <;> cases kind <;> simp [unbox?] at h <;> subst h <;> exact ⟨rfl, rfl⟩

end Slot

end BeanDispatch
