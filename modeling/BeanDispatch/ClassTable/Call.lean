import BeanDispatch.ClassTable
import BeanDispatch.Instruction

/-! Method calls and method searches. A call names the class or interface it goes through; what runs
is the body nearest to the receiver's class, then a default body of one of its interfaces. What a
body returns is checked against the declared result. A search looks at declarations, with or without
a body, of a class and all its supertypes. -/

namespace BeanDispatch

def CallKind.ofInterface (viaInterface : Bool) : CallKind :=
  if viaInterface then .interface else .virtual

def memberName (owner name : String) : String := owner ++ "." ++ name

namespace ClassTable

/-- The body that a call on an instance of the class runs. -/
def body? (t : ClassTable) (cls name : String) (params : List TypeName) : Option Native :=
  ((t.superclassChain cls).findSome? fun d => d.body? name params).or
    (((t.supertypes cls).filter ClassDef.isInterface).findSome? fun d => d.body? name params)

/-- Whether a slot is what a method with this result type may return. -/
def returns (t : ClassTable) (result : TypeName) (slot : Slot) : Bool :=
  match result, slot with
  | .primitive kind, slot => slot.primitive? = some kind
  | .named _, .ref value => value.isNull || t.isInstance value result
  | _, _ => false

def typeText : Slot → String
  | .bool _ => Primitive.boolean.keyword
  | .int _ => Primitive.int.keyword
  | .long _ => Primitive.long.keyword
  | .double _ => Primitive.double.keyword
  | .ref value => value.className

/-- The receiver of a call through `owner`, which must be known, of the right kind, and a supertype
of the receiver's class. -/
def checkReceiver (t : ClassTable) (kind : CallKind) (owner : String) (method : Signature)
    (receiver : Value) : Except Fault Ref :=
  match receiver with
  | .null => .error (.nullPointer (.receiver owner method.name))
  | .object ref => do
    let d ← t.require owner
    match kind, d.isInterface with
    | .virtual, true => throw (.incompatible (.classExpected owner))
    | .interface, false => throw (.incompatible (.interfaceExpected owner))
    | _, _ => pure ()
    if t.isSubtype ref.cls owner then return ref
    else throw (.incompatible (.notSubtype ref.cls owner))
  | other => .error (.operand (.receiver owner method.name other.className))

/-- Calls a method on a receiver with arguments of its parameter types; a void method has no
result. -/
def invoke (t : ClassTable) (kind : CallKind) (owner : String) (method : Signature)
    (receiver : Value) (args : List Slot) : Action Fault (Option Slot) := do
  let ref ← Action.ofExcept (t.checkReceiver kind owner method receiver)
  if args.length ≠ method.arity then
    throw (.argumentCount (memberName owner method.name) method.arity args.length)
  match t.body? ref.cls method.name method.params with
  | none => throw (.noSuchMethod ref.cls method.text)
  | some body =>
    let result ← body ref args
    if method.returnsVoid then return none
    else if t.returns method.result result then return some result
    else throw (.invalidReturn (memberName owner method.name) method.result.text
      (typeText result))

/-- The method of a class or interface, declared there or inherited, with this name and exactly
these parameter types. -/
def requiredMethod (t : ClassTable) (owner name : String) (params : ParameterList) :
    Except Fault LocatedMethod := do
  let d ← t.require owner
  match (t.supertypes owner).findSome? fun d => d.declared? name params.types with
  | some found => return ⟨owner, found.signature, d.isInterface⟩
  | none => throw (.noSuchMethod owner (name ++ "(" ++ typeList params.types ++ ")"))

def castAll (t : ClassTable) : List Value → List TypeName → Except Fault (List Slot)
  | value :: values, type :: types => do
    let slot ← t.cast value type
    return slot :: (← castAll t values types)
  | _, _ => .ok []

end ClassTable

/-- What a call yields to its caller: null for a void method, and a boxed primitive. -/
def resultValue (result : Option Slot) : Value :=
  match result with
  | some slot => slot.boxed
  | none => .null

/-- Calls a located method; there are as many arguments as parameters. -/
def LocatedMethod.invoke (m : LocatedMethod) (t : ClassTable) (target : Value)
    (args : List Value) : Action Fault Value := do
  if args.length ≠ m.signature.arity then
    throw (.argumentCount (memberName m.declaring m.signature.name) m.signature.arity args.length)
  let receiver ← Action.ofExcept (t.cast target (.named m.declaring))
  let slots ← Action.ofExcept (t.castAll args m.signature.params)
  let result ← t.invoke (CallKind.ofInterface m.viaInterface) m.declaring m.signature
    receiver.boxed slots
  return resultValue result

end BeanDispatch
