import BeanDispatch.Fault
import BeanDispatch.Heap

/-! Class definitions and the table of all classes. A class may only name classes defined before it,
so the table is kept with the newest definition first and every question about the ancestors of a
class is answered by recursion on the older definitions behind its own. `isSubtype` follows
superclasses and interfaces; every name, defined or not, is a subtype of itself and of the root
class. -/

namespace BeanDispatch

/-- The body of a method: what it does with the receiver and the arguments. -/
abbrev Native := Ref → List Slot → Action Fault Slot

/-- A declared method; one without a body is abstract. -/
structure MethodDef where
  signature : Signature
  body : Option Native

/-- A declared field and its content in a new object. -/
structure FieldDef where
  name : String
  initial : Slot

structure ClassDef where
  name : String
  superclass : Option String
  interfaces : List String
  isInterface : Bool
  fields : List FieldDef
  methods : List MethodDef

namespace ClassDef

/-- A class below the root class, which alone has no superclass. -/
def ofClass (name : String) : ClassDef :=
  { name
    superclass := if name = Builtin.object then none else some Builtin.object
    interfaces := []
    isInterface := false
    fields := []
    methods := [] }

def ofInterface (name : String) : ClassDef :=
  { name, superclass := none, interfaces := [], isInterface := true, fields := [], methods := [] }

def extending (d : ClassDef) (superclass : String) : ClassDef :=
  { d with superclass := some superclass }

/-- The classes a definition names: the superclass, then the interfaces. -/
def parents (d : ClassDef) : List String := d.superclass.toList ++ d.interfaces

def declared? (d : ClassDef) (name : String) (params : List TypeName) : Option MethodDef :=
  d.methods.find? fun m => m.signature.name = name && m.signature.params = params

def body? (d : ClassDef) (name : String) (params : List TypeName) : Option Native :=
  (d.declared? name params).bind MethodDef.body

end ClassDef

/-- All known classes, the newest first. -/
structure ClassTable where
  defs : List ClassDef

namespace ClassTable

/-- The table that every program starts from. -/
def builtin : ClassTable where
  defs :=
    [ (ClassDef.ofClass Builtin.double).extending Builtin.number,
      (ClassDef.ofClass Builtin.long).extending Builtin.number,
      (ClassDef.ofClass Builtin.integer).extending Builtin.number,
      ClassDef.ofClass Builtin.boolean,
      ClassDef.ofClass Builtin.number,
      ClassDef.ofClass Builtin.string,
      ClassDef.ofClass Builtin.object ]

def get? (t : ClassTable) (name : String) : Option ClassDef := t.defs.find? (·.name = name)

def contains (t : ClassTable) (name : String) : Bool := (t.get? name).isSome

/-- A class that must be known. -/
def require (t : ClassTable) (name : String) : Except Fault ClassDef :=
  match t.get? name with
  | some d => .ok d
  | none => .error (.unknownClass name)

/-- Adds a class. Its name must be new, the classes it names known, and its superclass a class. -/
def define (t : ClassTable) (d : ClassDef) : Except Fault ClassTable := do
  if t.contains d.name then throw (.duplicateClass d.name)
  d.parents.forM fun parent => discard (t.require parent)
  if let some superclass := d.superclass then
    if (← t.require superclass).isInterface then
      throw (.incompatible (.extendsInterface d.name superclass))
  return ⟨d :: t.defs⟩

/-! ### The hierarchy -/

/-- Subtyping among the given definitions, newest first. -/
def isSubtypeIn : List ClassDef → String → String → Bool
  | [], sub, sup => sub = sup || sup = Builtin.object
  | d :: older, sub, sup =>
    sub = sup || sup = Builtin.object ||
      if d.name = sub then d.parents.any fun parent => isSubtypeIn older parent sup
      else isSubtypeIn older sub sup

/-- Whether `sub` is `sup` or inherits from it; everything inherits from the root class. -/
def isSubtype (t : ClassTable) (sub sup : String) : Bool := isSubtypeIn t.defs sub sup

/-- A class and its superclasses among the given definitions, nearest first. -/
def chainIn : List ClassDef → String → List ClassDef
  | [], _ => []
  | d :: older, name =>
    if d.name = name then
      d :: match d.superclass with
        | some superclass => chainIn older superclass
        | none => []
    else chainIn older name

/-- A class and its superclasses, nearest first. -/
def superclassChain (t : ClassTable) (name : String) : List ClassDef := chainIn t.defs name

/-- Adds the named classes that are not yet in a list, in their order. -/
def addUnlisted (t : ClassTable) (listed : List ClassDef) (names : List String) : List ClassDef :=
  names.foldl
    (fun listed name =>
      match t.get? name with
      | some d => if listed.any (·.name = d.name) then listed else listed ++ [d]
      | none => listed)
    listed

/-- Goes through a list from position `next` on and adds the interfaces of each class it meets. -/
def addInterfaces (t : ClassTable) : Nat → Nat → List ClassDef → List ClassDef
  | 0, _, listed => listed
  | fuel + 1, next, listed =>
    match listed[next]? with
    | none => listed
    | some d => addInterfaces t fuel (next + 1) (addUnlisted t listed d.interfaces)

/-- A class, its superclasses, and every interface reached from them, breadth first. No class is
listed twice, so the number of classes bounds the positions to visit. -/
def supertypes (t : ClassTable) (name : String) : List ClassDef :=
  addInterfaces t t.defs.length 0 (t.superclassChain name)

/-! ### Values and types -/

/-- Whether a value is a non-null instance of a type; only classes have instances. -/
def isInstance (t : ClassTable) (value : Value) : TypeName → Bool
  | .named name => !value.isNull && t.isSubtype value.className name
  | _ => false

/-- The value as the content of a type: null and instances for a class, the unboxed primitive for a
primitive type. -/
def cast (t : ClassTable) (value : Value) (type : TypeName) : Except Fault Slot :=
  match type with
  | .primitive kind =>
    match Slot.unbox? value kind with
    | some slot => .ok slot
    | none =>
      if value.isNull then .error (.nullPointer (.unboxing kind))
      else .error (.classCast value.className kind.wrapper)
  | .named name =>
    if value.isNull || t.isInstance value type then .ok (.ref value)
    else .error (.classCast value.className name)
  | .void => .error (.operand .castToVoid)

/-- The fields of a new object: those of the superclasses first. A field declared again keeps its
place and takes the later content. -/
def layout (t : ClassTable) (name : String) : OrderedMap Slot :=
  OrderedMap.ofList
    ((t.superclassChain name).reverse.flatMap fun d => d.fields.map fun f => (f.name, f.initial))

/-- A new object of a class, every field with its first content. -/
def newInstance (t : ClassTable) (name : String) : Action Fault Ref := do
  let d ← Action.ofExcept (t.require name)
  if d.isInterface then throw (.notInstantiable name)
  Action.allocate name (t.layout name)

end ClassTable

end BeanDispatch
