import BeanDispatch.Introspection.Compiled

/-! Building introspections. The members of a bean type are declared one after the other; each
declaration appends its targets to the catalog and records their indices with the property or method
in the same step, so the recorded indices are the keys of the emitted cases. A constructor comes
with its arguments; one without arguments is the default constructor. -/

namespace BeanDispatch

/-- The names of the methods that read, write and copy a property. -/
structure Accessors where
  getter : Option String := none
  setter : Option String := none
  wither : Option String := none

/-- What is declared about a method. -/
structure MethodDeclaration where
  name : String
  result : TypeName
  arguments : List Descriptor := []
  /-- The class or interface the method is called on, if not the bean type. -/
  owner : Option String := none
  viaInterface : Bool := false
  style : DispatchStyle := .multi
  annotations : Annotations := OrderedMap.empty
  /-- The proxy class and the method that it answers with. -/
  bridge : Option (String × String) := none

def MethodDeclaration.signature (d : MethodDeclaration) : Signature :=
  ⟨d.name, d.arguments.map Descriptor.type, d.result⟩

/-- A declaration about a bean type. -/
inductive Declaration
  | field (descriptor : Descriptor)
  | readOnlyField (descriptor : Descriptor)
  | property (descriptor : Descriptor) (accessors : Accessors)
  | method (declaration : MethodDeclaration)
  | constructor (arguments : List Descriptor)
  | constructorWith (arguments : List Descriptor) (body : Constructor)
  | defaultConstructor
  | constructorAnnotations (annotations : Annotations)
  | emitOptions (options : EmitOptions)

/-- A property before it is known which names the constructor takes. -/
structure PendingProperty where
  descriptor : Descriptor
  read : Option UInt32 := none
  write : Option UInt32 := none
  wither : Option UInt32 := none

/-- Stores each value, cast to its argument's type, into the field of the argument's name. -/
def storeArguments (t : ClassTable) (ref : Ref) :
    List Descriptor → List Value → Action Fault Unit
  | argument :: arguments, value :: values => do
    let slot ← Action.ofExcept (t.cast value argument.type)
    if ← Action.store ref argument.name slot then storeArguments t ref arguments values
    else throw (.noSuchField ref.cls argument.name)
  | _, _ => return ()

/-- The constructor that makes an object of a class and stores the arguments into its fields. -/
def fieldConstructor (cls : String) (arguments : List Descriptor) : Constructor :=
  fun t values => do
    let ref ← t.newInstance cls
    storeArguments t ref arguments values
    return .object ref

/-- All that has been declared about a bean type. -/
structure Builder where
  beanType : String
  catalog : Catalog
  properties : List PendingProperty := []
  methods : List BeanMethod := []
  constructorArguments : List Descriptor := []
  constructor : Option Constructor := none
  defaultConstructor : Option Constructor := none
  constructorAnnotations : Annotations := OrderedMap.empty
  options : EmitOptions := {}

namespace Builder

def start (beanType : String) : Builder :=
  { beanType, catalog := Catalog.empty (beanType ++ "$Introspection") }

/-- Appends a target and yields its index. -/
def register (b : Builder) (target : Target) : UInt32 × Builder :=
  (b.catalog.nextIndex, { b with catalog := b.catalog.append target })

def recordProperty (b : Builder) (p : PendingProperty) : Builder :=
  { b with properties := b.properties ++ [p] }

/-- Appends an accessor method of the bean type, if there is one. -/
def registerAccessor (b : Builder) (name : Option String) (params : List TypeName)
    (result : TypeName) : Option UInt32 × Builder :=
  match name with
  | none => (none, b)
  | some name =>
    let (index, b) := b.register (.method ⟨b.beanType, ⟨name, params, result⟩, false⟩ .one)
    (some index, b)

def declareField (b : Builder) (d : Descriptor) : Builder :=
  let (read, b) := b.register (.fieldGet ⟨b.beanType, d.name, d.type⟩)
  let (write, b) := b.register (.fieldSet ⟨b.beanType, d.name, d.type⟩)
  b.recordProperty { descriptor := d, read := some read, write := some write }

def declareReadOnlyField (b : Builder) (d : Descriptor) : Builder :=
  let (read, b) := b.register (.fieldGet ⟨b.beanType, d.name, d.type⟩)
  b.recordProperty { descriptor := d, read := some read }

def declareProperty (b : Builder) (d : Descriptor) (accessors : Accessors) : Builder :=
  let (read, b) := b.registerAccessor accessors.getter [] d.type
  let (write, b) := b.registerAccessor accessors.setter [d.type] .void
  let (wither, b) := b.registerAccessor accessors.wither [d.type] (.named b.beanType)
  b.recordProperty { descriptor := d, read, write, wither }

def methodTarget (b : Builder) (d : MethodDeclaration) : Target :=
  let method : MethodTarget := ⟨d.owner.getD b.beanType, d.signature, d.viaInterface⟩
  match d.bridge with
  | some (proxy, bridge) => b.catalog.interceptedTarget method proxy bridge
  | none => .method method d.style

def declareMethod (b : Builder) (d : MethodDeclaration) : Builder :=
  let (index, b) := b.register (b.methodTarget d)
  let method : BeanMethod :=
    { name := d.name
      result := Descriptor.ofType d.result
      arguments := d.arguments
      annotations := d.annotations
      index
      singleValue := d.bridge.isNone && d.style = .one }
  { b with methods := b.methods ++ [method] }

/-- Sets the arguments together with the constructor that takes them. -/
def installConstructor (b : Builder) (arguments : List Descriptor) (body : Constructor) : Builder :=
  if arguments.isEmpty then
    { b with constructorArguments := arguments, defaultConstructor := some body }
  else { b with constructorArguments := arguments, constructor := some body }

def declare (b : Builder) : Declaration → Builder
  | .field d => b.declareField d
  | .readOnlyField d => b.declareReadOnlyField d
  | .property d accessors => b.declareProperty d accessors
  | .method d => b.declareMethod d
  | .constructor arguments =>
    b.installConstructor arguments (fieldConstructor b.beanType arguments)
  | .constructorWith arguments body => b.installConstructor arguments body
  | .defaultConstructor => { b with defaultConstructor := some (fieldConstructor b.beanType []) }
  | .constructorAnnotations annotations => { b with constructorAnnotations := annotations }
  | .emitOptions options => { b with options }

def declareAll (b : Builder) (declarations : List Declaration) : Builder :=
  declarations.foldl declare b

/-- A property with what the constructor adds to it. -/
def finishProperty (b : Builder) (p : PendingProperty) : Property :=
  { descriptor := p.descriptor
    read := p.read
    write := p.write
    wither := p.wither
    readOnly := p.write.isNone
    mutable := p.write.isSome ||
      b.constructorArguments.any fun argument => argument.name = p.descriptor.name }

/-- The position of each name among the properties, that of its last one. -/
def indexProperties (properties : List Property) : OrderedMap Nat :=
  OrderedMap.ofList (properties.zipIdx.map fun entry => (entry.1.name, entry.2))

/-- The introspection of a known class, once its routines can be emitted. -/
def build (b : Builder) (classes : ClassTable) : Except Failure (Introspection CompiledType) := do
  if !classes.contains b.beanType then throw (.dispatch (.unknownClass b.beanType))
  match b.catalog.emit b.options with
  | .error e => throw (.emission e)
  | .ok routines =>
    let properties := b.properties.map b.finishProperty
    return {
      generated := {
        routines, classes
        interceptable := false
        propertyIndex := indexProperties properties
        constructor := b.constructor
        defaultConstructor := b.defaultConstructor }
      beanType := b.beanType
      properties
      methods := b.methods
      constructorArguments := b.constructorArguments
      constructorAnnotations := b.constructorAnnotations }

end Builder

end BeanDispatch
