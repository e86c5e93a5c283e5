import BeanDispatch.LocatedMethod
import BeanDispatch.Value.Inspect

/-! Faults of dispatch, each with its cause. A fault comes from a routine, from the class table, or
from a native body, which reports a text of its own. -/

namespace BeanDispatch

/-- A use of null where an object or a boxed value is needed. -/
inductive NullUse
  | unboxing (kind : Primitive)
  | receiver (owner method : String)
  | fieldOwner (owner field : String)
deriving DecidableEq

/-- A conflict between a use of a class and its definition. -/
inductive ClassConflict
  | extendsInterface (cls interface : String)
  | classExpected (owner : String)
  | interfaceExpected (owner : String)
  | notSubtype (cls owner : String)
deriving DecidableEq

/-- An operand or argument that does not fit an instruction. -/
inductive OperandFault
  | castToVoid
  | receiver (owner method cls : String)
  | fieldOwner (owner field cls : String)
  | underflow
  | notReference (found : Slot)
  | branchCondition
  | notBoxable (kind : Primitive)
  | noSingleArgument
  | noPositionalArgument
  | noResult (index : UInt32)
  | locatedValue (value : Value)
  | dispatchedMethod (method : LocatedMethod)
deriving DecidableEq

/-- Why a dispatch, a call or a definition failed. -/
inductive Fault
  | unknownIndex (index : UInt32)
  | classCast (found expected : String)
  | nullPointer (use : NullUse)
  | missingArgument (position : UInt16) (count : Nat)
  | noSuchField (cls field : String)
  | noSuchMethod (cls method : String)
  | incompatible (conflict : ClassConflict)
  | unknownClass (name : String)
  | duplicateClass (name : String)
  | notInstantiable (name : String)
  | argumentCount (method : String) (expected found : Nat)
  | operand (fault : OperandFault)
  | invalidReturn (method expected found : String)
  | native (text : String)
  /-- A run that was cut off; see `Machine.allowance`. -/
  | unfinished (index : UInt32)
deriving DecidableEq

def NullUse.message : NullUse → String
  | unboxing kind => "cannot unbox null to " ++ kind.keyword
  | receiver owner method => "invoke " ++ owner ++ "." ++ method ++ " on null"
  | fieldOwner owner field => "field " ++ owner ++ "." ++ field ++ " of null"

def ClassConflict.message : ClassConflict → String
  | extendsInterface cls interface => cls ++ " cannot extend interface " ++ interface
  | classExpected owner => owner ++ " is an interface, expected a class"
  | interfaceExpected owner => owner ++ " is a class, expected an interface"
  | notSubtype cls owner => cls ++ " is not a subtype of " ++ owner

/-- `label` names an object. -/
def OperandFault.message (label : Ref → String) : OperandFault → String
  | castToVoid => "cast to void"
  | receiver owner method cls => "receiver of " ++ owner ++ "." ++ method ++ " is a " ++ cls
  | fieldOwner owner field cls => "field " ++ owner ++ "." ++ field ++ " of a " ++ cls
  | underflow => "operand stack underflow"
  | notReference found => "expected a reference, found " ++ found.inspect label
  | branchCondition => "branch on non-boolean"
  | notBoxable kind => "box " ++ kind.keyword ++ " of non-" ++ kind.keyword ++ " operand"
  | noSingleArgument => "single argument requested in multi-value dispatch"
  | noPositionalArgument => "positional argument requested in single-value dispatch"
  | noResult index => "case " ++ toString index.toNat ++ " ended without a result"
  | locatedValue value => "locator produced value " ++ value.text label
  | dispatchedMethod method => "dispatch produced method handle " ++ method.text

/-- `label` names an object. -/
def Fault.message (label : Ref → String) : Fault → String
  | unknownIndex index => "Unknown dispatch at index: " ++ toString index.toNat
  | classCast found expected => "class " ++ found ++ " cannot be cast to " ++ expected
  | nullPointer use => "null pointer: " ++ use.message
  | missingArgument position count =>
    "argument " ++ toString position.toNat ++ " requested but only " ++ toString count ++
      " supplied"
  | noSuchField cls field => "no field " ++ field ++ " on " ++ cls
  | noSuchMethod cls method => "no method " ++ method ++ " on " ++ cls
  | incompatible conflict => "incompatible class change: " ++ conflict.message
  | unknownClass name => "unknown class " ++ name
  | duplicateClass name => "class " ++ name ++ " is already defined"
  | notInstantiable name => "cannot instantiate " ++ name
  | argumentCount method expected found =>
    method ++ " expects " ++ toString expected ++ " arguments, got " ++ toString found
  | operand fault => "invalid operand: " ++ fault.message label
  | invalidReturn method expected found =>
    method ++ " returned " ++ found ++ ", expected " ++ expected
  | native text => text
  | unfinished index => "case " ++ toString index.toNat ++ " did not finish"

end BeanDispatch
