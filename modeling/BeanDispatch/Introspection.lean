import BeanDispatch.Descriptor
import BeanDispatch.Emission
import BeanDispatch.Machine

/-! Introspection of bean types. An introspection pairs a generated type, which dispatches by index,
with the properties and methods that hold the indices, and checks what it is given before it
dispatches: beans and values must be instances of the types they stand for. -/

namespace BeanDispatch

/-- A value that does not have the type it should have. -/
inductive Mismatch
  | bean (value : Value) (type : String)
  | propertyValue (value : Value) (type : TypeName)

inductive Unsupported
  | readWriteOnly
  | noReader (property : String)
  | writeReadOnly (property : String)
  | noWriter (property : String)
  | noCopy (beanType : String) (propertyType : TypeName)
  | noProperty (argument : Descriptor)
  | singleArgument (method : String) (count : Nat)

inductive Uninstantiable
  | argumentCount (found expected : Nat)
  | nullArgument (name : String)
  | invalidArgument (value : Value) (argument : Descriptor)
  | noConstructor (type : String)
  | noDefaultConstructor

inductive Failure
  | mismatch (cause : Mismatch)
  | unsupported (cause : Unsupported)
  | instantiation (cause : Uninstantiable)
  | dispatch (fault : Fault)
  | emission (error : EmitError)

/-- `label` names an object. -/
def Mismatch.message (label : Ref → String) : Mismatch → String
  | bean value type => "Invalid bean [" ++ value.text label ++ "] for type: " ++ type
  | propertyValue value type =>
    "Specified value [" ++ value.text label ++ "] is not of the correct type: " ++ type.text

def Unsupported.message : Unsupported → String
  | readWriteOnly => "Cannot read from a write-only property"
  | noReader property => "Property [" ++ property ++ "] has no read accessor"
  | writeReadOnly property => "Cannot write a read-only property: " ++ property
  | noWriter property => "Property [" ++ property ++ "] has no write accessor"
  | noCopy beanType propertyType =>
    "Cannot create copy of type [" ++ beanType ++ "]. Property of type [" ++ propertyType.text ++
      "] is not a constructor argument and is read-only"
  | noProperty argument =>
    "Constructor argument [" ++ argument.text ++ "] doesn't have a corresponding property"
  | singleArgument method count =>
    "Method [" ++ method ++ "] takes at most one argument, got " ++ toString count

def Uninstantiable.message (label : Ref → String) : Uninstantiable → String
  | argumentCount found expected =>
    "Argument count [" ++ toString found ++ "] doesn't match required argument count: " ++
      toString expected
  | nullArgument name =>
    "Null argument specified for [" ++ name ++
      "]. If this argument is allowed to be null annotate it with @Nullable"
  | invalidArgument value argument =>
    "Invalid argument [" ++ value.text label ++ "] specified for argument: " ++ argument.text
  | noConstructor type => "No constructor exists for type: " ++ type
  | noDefaultConstructor => "No default constructor exists"

def Failure.message (label : Ref → String) : Failure → String
  | mismatch cause => cause.message label
  | unsupported cause => cause.message
  | instantiation cause => cause.message label
  | dispatch fault => fault.message label
  | emission error => error.message

/-- A position at which there is no property; asking for one ends the program with the message. -/
structure PositionError where
  position : Nat
  count : Nat

def PositionError.message (e : PositionError) : String :=
  "property index " ++ toString e.position ++ " out of range for " ++ toString e.count ++
    " properties"

/-- A property: its descriptor and the indices of its accessors. -/
structure Property where
  descriptor : Descriptor
  read : Option UInt32
  write : Option UInt32
  wither : Option UInt32
  readOnly : Bool
  /-- Whether there is a setter or a constructor argument for it. -/
  mutable : Bool

namespace Property

def name (p : Property) : String := p.descriptor.name

def isWriteOnly (p : Property) : Bool :=
  p.read.isNone && (p.write.isSome || p.wither.isSome)

end Property

/-- A method: what is declared about it and its index. -/
structure BeanMethod where
  name : String
  result : Descriptor
  arguments : List Descriptor
  annotations : Annotations
  index : UInt32
  /-- Whether it is called by dispatch with one argument. -/
  singleValue : Bool

/-- What stands behind an introspection: dispatch by index, a type test, and constructors. -/
class GeneratedType (γ : Type) where
  dispatch : γ → UInt32 → Value → List Value → Action Fault Value
  dispatchOne : γ → UInt32 → Value → Value → Action Fault Value
  locate : γ → UInt32 → Action Fault LocatedMethod
  isInstance : γ → Value → TypeName → Bool
  construct : γ → List Value → Action Failure Value
  constructDefault : γ → Action Failure Value :=
    fun _ => throw (.instantiation .noDefaultConstructor)
  /-- The position of the property of a name. -/
  findProperty : γ → String → List Property → Option Nat :=
    fun _ name properties => properties.findIdx? fun p => p.name = name

/-- Whether null needs to be declared to be passed to a constructor. -/
structure InstantiateOptions where
  strictNullable : Bool := true

/-- A generated type with the members recorded for it. -/
structure Introspection (γ : Type) where
  generated : γ
  beanType : String
  properties : List Property
  methods : List BeanMethod
  constructorArguments : List Descriptor
  constructorAnnotations : Annotations

namespace Introspection

variable {γ : Type} [GeneratedType γ]

def property? (i : Introspection γ) (name : String) : Option Property :=
  (GeneratedType.findProperty i.generated name i.properties).bind fun position =>
    i.properties[position]?

/-- The property at a position in the order of declaration. -/
def propertyAt (i : Introspection γ) (position : Nat) : Except PositionError Property :=
  match i.properties[position]? with
  | some p => .ok p
  | none => .error ⟨position, i.properties.length⟩

/-- Properties are not indexed by annotation. -/
def indexedProperty? (_ : Introspection γ) (_name _value : String) : Option Property := none

def indexedProperties (_ : Introspection γ) (_name : String) : List Property := []

/-! ### Instantiation -/

/-- The problem of a constructor argument with the value passed for it. -/
def argumentProblem? (i : Introspection γ) (options : InstantiateOptions) (argument : Descriptor)
    (value : Value) : Option Uninstantiable :=
  if value.isNull then
    if argument.nullable || !options.strictNullable then none
    else some (.nullArgument argument.name)
  else if GeneratedType.isInstance i.generated value argument.type.boxed then none
  else some (.invalidArgument value argument)

def firstProblem? (i : Introspection γ) (options : InstantiateOptions) :
    List Descriptor → List Value → Option Uninstantiable
  | argument :: arguments, value :: values =>
    (i.argumentProblem? options argument value).or (i.firstProblem? options arguments values)
  | _, _ => none

/-- A new bean: from the default constructor without values, and else from the constructor once
number and types of the values are as declared. -/
def instantiateWith (i : Introspection γ) (options : InstantiateOptions) (args : List Value) :
    Action Failure Value :=
  if args.isEmpty then GeneratedType.constructDefault i.generated
  else if args.length ≠ i.constructorArguments.length then
    throw (.instantiation (.argumentCount args.length i.constructorArguments.length))
  else
    match i.firstProblem? options i.constructorArguments args with
    | some problem => throw (.instantiation problem)
    | none => GeneratedType.construct i.generated args

def instantiate (i : Introspection γ) (args : List Value) : Action Failure Value :=
  i.instantiateWith {} args

/-! ### Properties -/

def checkBean (i : Introspection γ) (bean : Value) : Except Failure Unit :=
  if GeneratedType.isInstance i.generated bean (.named i.beanType) then .ok ()
  else .error (.mismatch (.bean bean i.beanType))

def get (i : Introspection γ) (p : Property) (bean : Value) : Action Failure Value := do
  Action.ofExcept (i.checkBean bean)
  if p.isWriteOnly then throw (.unsupported .readWriteOnly)
  match p.read with
  | some index => Action.widen .dispatch (GeneratedType.dispatchOne i.generated index bean .null)
  | none => throw (.unsupported (.noReader p.name))

def checkValue (i : Introspection γ) (p : Property) (value : Value) : Except Failure Unit :=
  if value.isNull || GeneratedType.isInstance i.generated value p.descriptor.type.boxed then .ok ()
  else .error (.mismatch (.propertyValue value p.descriptor.type.boxed))

def set (i : Introspection γ) (p : Property) (bean value : Value) : Action Failure Unit := do
  Action.ofExcept (i.checkBean bean)
  if p.readOnly then throw (.unsupported (.writeReadOnly p.name))
  Action.ofExcept (i.checkValue p value)
  match p.write with
  | some index =>
    discard (Action.widen .dispatch (GeneratedType.dispatchOne i.generated index bean value))
  | none => throw (.unsupported (.noWriter p.name))

def constructs (i : Introspection γ) (name : String) : Bool :=
  i.constructorArguments.any fun argument => argument.name = name

/-- The constructor arguments of a copy: the new value for the property that changes, and for every
other one what the bean has. -/
def copyArguments (i : Introspection γ) (p : Property) (bean value : Value) :
    List Descriptor → Action Failure (List Value)
  | [] => return []
  | argument :: rest => do
    let here ←
      if argument.name = p.name then pure value
      else
        match i.property? argument.name with
        | some property => i.get property bean
        | none => throw (.unsupported (.noProperty argument))
    return here :: (← i.copyArguments p bean value rest)

/-- Stores into a copy what its constructor did not set. -/
def carryOver (i : Introspection γ) (bean copy : Value) : List Property → Action Failure Unit
  | [] => return ()
  | p :: rest => do
    if !(i.constructs p.name || p.readOnly || p.isWriteOnly) then
      i.set p copy (← i.get p bean)
    i.carryOver bean copy rest

/-- A bean with the value: the bean itself after a write if the property can be written, and else a
new bean made by the constructor. -/
def copyWith (i : Introspection γ) (p : Property) (bean value : Value) : Action Failure Value := do
  if !p.readOnly then
    i.set p bean value
    return bean
  if !i.constructs p.name then
    throw (.unsupported (.noCopy i.beanType p.descriptor.type))
  let args ← i.copyArguments p bean value i.constructorArguments
  let copy ← i.instantiateWith { strictNullable := false } args
  i.carryOver bean copy i.properties
  return copy

/-- A bean whose property has the value; the bean itself if it has the value already. -/
def withValue (i : Introspection γ) (p : Property) (bean value : Value) : Action Failure Value := do
  Action.ofExcept (i.checkBean bean)
  let unchanged ←
    if p.read.isSome then pure ((← i.get p bean).same value) else pure false
  if unchanged then return bean
  match p.wither with
  | some index => Action.widen .dispatch (GeneratedType.dispatchOne i.generated index bean value)
  | none => i.copyWith p bean value

/-! ### Methods -/

def invoke (i : Introspection γ) (m : BeanMethod) (bean : Value) (args : List Value) :
    Action Failure Value :=
  if m.singleValue then
    if 1 < args.length then throw (.unsupported (.singleArgument m.name args.length))
    else
      Action.widen .dispatch
        (GeneratedType.dispatchOne i.generated m.index bean (args.headD .null))
  else Action.widen .dispatch (GeneratedType.dispatch i.generated m.index bean args)

def reflect (i : Introspection γ) (m : BeanMethod) : Action Failure LocatedMethod :=
  Action.widen .dispatch (GeneratedType.locate i.generated m.index)

end Introspection

end BeanDispatch
