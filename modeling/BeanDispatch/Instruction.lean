import BeanDispatch.Signature

/-! The instructions of dispatch routines. They work on a stack of slots; the only branch is
`branchFalse`, which interception uses. An address is the position of an instruction within the code
of its case. -/

namespace BeanDispatch

/-- How a call finds its method: through the class of the receiver, or through an interface. -/
inductive CallKind
  | virtual
  | interface
deriving DecidableEq

/-- The parameter types of a method search. The absence of parameters is written as such; an empty
list means the same. -/
inductive ParameterList
  | none
  | listed (types : List TypeName)
deriving DecidableEq

namespace ParameterList

def ofTypes (types : List TypeName) : ParameterList :=
  if types.isEmpty then none else listed types

def types : ParameterList → List TypeName
  | none => []
  | listed types => types

def isNone : ParameterList → Bool
  | none => true
  | listed _ => false

def text : ParameterList → String
  | none => "EMPTY"
  | listed types => typeList types

@[simp] theorem types_ofTypes (types : List TypeName) : (ofTypes types).types = types := by
  cases types <;> rfl

end ParameterList

/-- One step of a dispatch routine. -/
inductive Instruction
  /-- Pushes the target of the dispatch. -/
  | loadTarget
  /-- Pushes the argument of a dispatch with one argument. -/
  | loadArgument
  /-- Pushes one of a list of arguments. -/
  | loadPositional (position : UInt16)
  /-- Pushes whether interception is on. -/
  | loadInterceptable
  | pushNull
  /-- Pops a reference and pushes it cast to the type; a primitive type unboxes it. -/
  | checkCast (type : TypeName)
  /-- Pops a reference and pushes whether it is an instance of the type. -/
  | instanceOf (type : TypeName)
  /-- Pops a boolean and jumps if it is false. -/
  | branchFalse (address : UInt16)
  /-- Pops an object and pushes the content of its field. -/
  | getField (owner name : String) (type : TypeName)
  /-- Pops a content and an object and stores into the field. -/
  | putField (owner name : String) (type : TypeName)
  /-- Pops arguments and receiver, calls the method, and pushes its result if there is one. -/
  | invoke (kind : CallKind) (owner : String) (method : Signature)
  /-- Pops an unboxed primitive and pushes it boxed. -/
  | box (kind : Primitive)
  /-- Ends the case with the reference on top of the stack. -/
  | ret
  /-- Ends the case with a handle to a method. -/
  | resolve (owner name : String) (params : ParameterList)
  /-- Ends the case with the fault that the index is unknown. -/
  | unknownIndex
deriving DecidableEq

namespace Instruction

/-- Whether execution never goes on to the next instruction. -/
def isTerminal : Instruction → Bool
  | ret => true
  | resolve _ _ _ => true
  | unknownIndex => true
  | _ => false

def jumpTarget? : Instruction → Option UInt16
  | branchFalse address => some address
  | _ => none

end Instruction

def twoDigits (n : Nat) : String := if n < 10 then "0" ++ toString n else toString n

def CallKind.mnemonic : CallKind → String
  | virtual => "invoke.virtual"
  | interface => "invoke.interface"

/-- The instruction in assembly notation. -/
def Instruction.text : Instruction → String
  | loadTarget => "load.target"
  | loadArgument => "load.arg"
  | loadPositional position => "load.arg " ++ toString position.toNat
  | loadInterceptable => "load.interceptable"
  | pushNull => "push.null"
  | checkCast type => "checkcast " ++ type.text
  | instanceOf type => "instanceof " ++ type.text
  | branchFalse address => "if.false " ++ twoDigits address.toNat
  | getField owner name type => "getfield " ++ owner ++ "." ++ name ++ ": " ++ type.text
  | putField owner name type => "putfield " ++ owner ++ "." ++ name ++ ": " ++ type.text
  | invoke kind owner method => kind.mnemonic ++ " " ++ owner ++ "." ++ method.text
  | box kind => "box " ++ kind.keyword
  | ret => "return"
  | resolve owner name params =>
    "resolve " ++ owner ++ "." ++ name ++ "(" ++ params.text ++ ")"
  | unknownIndex => "throw.unknown_index"

def codeLine (address : Nat) (i : Instruction) : String :=
  "  " ++ twoDigits address ++ "  " ++ i.text

end BeanDispatch
