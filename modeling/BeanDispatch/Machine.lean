import BeanDispatch.ClassTable.Call
import BeanDispatch.RoutineSet

/-! The machine that runs dispatch routines. `step` says what one instruction does to the stack and
the heap; `run` repeats it from an address until the case ends. Code with backward branches may loop
for as long as its native bodies let it, so `run` counts steps and distinguishes a run that has not
ended from every outcome of one that has. -/

namespace BeanDispatch

/-- The arguments of a dispatch: one, or a list. -/
inductive Arguments
  | single (value : Value)
  | multi (values : List Value)

structure Call where
  target : Value
  arguments : Arguments
  interceptable : Bool

inductive Completion
  | value (value : Value)
  | method (method : LocatedMethod)
deriving DecidableEq

/-- `label` names an object. -/
def Completion.text (label : Ref → String) : Completion → String
  | value v => v.text label
  | method m => "method " ++ m.text

/-- Slots, the latest first. -/
abbrev Stack := List Slot

/-- Where a run goes after an instruction: on, to an address, or to its end. -/
inductive Next
  | goOn (stack : Stack)
  | jump (address : UInt16) (stack : Stack)
  | done (completion : Completion)

namespace Machine

def popSlot : Stack → Except Fault (Slot × Stack)
  | slot :: rest => .ok (slot, rest)
  | [] => .error (.operand .underflow)

def popReference (stack : Stack) : Except Fault (Value × Stack) := do
  match ← popSlot stack with
  | (.ref value, rest) => return (value, rest)
  | (slot, _) => throw (.operand (.notReference slot))

/-- The latest `n` slots in the order in which they were pushed, and the rest. -/
def popArguments (n : Nat) (stack : Stack) : Except Fault (List Slot × Stack) :=
  if n ≤ stack.length then .ok ((stack.take n).reverse, stack.drop n)
  else .error (.operand .underflow)

def fieldOwner (owner field : String) : Value → Except Fault Ref
  | .object ref => .ok ref
  | .null => .error (.nullPointer (.fieldOwner owner field))
  | other => .error (.operand (.fieldOwner owner field other.className))

def singleArgument : Arguments → Except Fault Value
  | .single value => .ok value
  | .multi _ => .error (.operand .noSingleArgument)

def positionalArgument (position : UInt16) : Arguments → Except Fault Value
  | .single _ => .error (.operand .noPositionalArgument)
  | .multi values =>
    match values[position.toNat]? with
    | some value => .ok value
    | none => .error (.missingArgument position values.length)

/-- What one instruction of the case at `index` does. -/
def step (t : ClassTable) (index : UInt32) (call : Call) (stack : Stack) :
    Instruction → Action Fault Next
  | .loadTarget => return .goOn (.ref call.target :: stack)
  | .loadArgument => do
    let value ← Action.ofExcept (singleArgument call.arguments)
    return .goOn (.ref value :: stack)
  | .loadPositional position => do
    let value ← Action.ofExcept (positionalArgument position call.arguments)
    return .goOn (.ref value :: stack)
  | .loadInterceptable => return .goOn (.bool call.interceptable :: stack)
  | .pushNull => return .goOn (Slot.null :: stack)
  | .checkCast type => do
    let (value, stack) ← Action.ofExcept (popReference stack)
    let slot ← Action.ofExcept (t.cast value type)
    return .goOn (slot :: stack)
  | .instanceOf type => do
    let (value, stack) ← Action.ofExcept (popReference stack)
    return .goOn (.bool (t.isInstance value type) :: stack)
  | .branchFalse address => do
    match ← Action.ofExcept (popSlot stack) with
    | (.bool true, stack) => return .goOn stack
    | (.bool false, stack) => return .jump address stack
    | _ => throw (.operand .branchCondition)
  | .getField owner name _ => do
    let (value, stack) ← Action.ofExcept (popReference stack)
    let ref ← Action.ofExcept (fieldOwner owner name value)
    match ← Action.field? ref name with
    | some slot => return .goOn (slot :: stack)
    | none => throw (.noSuchField owner name)
  | .putField owner name _ => do
    let (slot, stack) ← Action.ofExcept (popSlot stack)
    let (value, stack) ← Action.ofExcept (popReference stack)
    let ref ← Action.ofExcept (fieldOwner owner name value)
    if ← Action.store ref name slot then return .goOn stack
    else throw (.noSuchField owner name)
  | .invoke kind owner method => do
    let (args, stack) ← Action.ofExcept (popArguments method.arity stack)
    let (receiver, stack) ← Action.ofExcept (popReference stack)
    match ← t.invoke kind owner method receiver args with
    | some slot => return .goOn (slot :: stack)
    | none => return .goOn stack
  | .box kind => do
    let (slot, stack) ← Action.ofExcept (popSlot stack)
    if slot.primitive? = some kind then return .goOn (.ref slot.boxed :: stack)
    else throw (.operand (.notBoxable kind))
  | .ret => do
    let (value, _) ← Action.ofExcept (popReference stack)
    return .done (.value value)
  | .resolve owner name params => do
    let method ← Action.ofExcept (t.requiredMethod owner name params)
    return .done (.method method)
  | .unknownIndex => throw (.unknownIndex index)

/-- Runs code from an address for at most `fuel` instructions; no completion means that the run has
not ended. -/
def run (t : ClassTable) (index : UInt32) (call : Call) (code : Array Instruction) :
    Nat → Nat → Stack → Action Fault (Option Completion)
  | 0, _, _ => return none
  | fuel + 1, address, stack =>
    match code[address]? with
    | none => throw (.operand (.noResult index))
    | some i => do
      match ← step t index call stack i with
      | .goOn stack => run t index call code fuel (address + 1) stack
      | .jump target stack => run t index call code fuel target.toNat stack
      | .done completion => return some completion

/-- The number of instructions after which a run is cut off. It exceeds the length of the code, so
only a run that repeats instructions can reach it, and is beyond what any machine counts to. -/
def allowance (code : Array Instruction) : Nat := code.size + Nat.pow 2 60

def runToEnd (t : ClassTable) (index : UInt32) (call : Call) (code : Array Instruction) :
    Action Fault Completion := do
  match ← run t index call code (allowance code) 0 [] with
  | some completion => return completion
  | none => throw (.unfinished index)

end Machine

namespace RoutineSet

/-- Runs the case of an index. A routine that is absent has no cases. -/
def execute (s : RoutineSet) (t : ClassTable) (kind : RoutineKind) (index : UInt32) (call : Call) :
    Action Fault Completion :=
  match s.routine? kind with
  | none => throw (.unknownIndex index)
  | some r => Machine.runToEnd t index call (r.codeFor index)

/-- The value that a dispatch is expected to end with. -/
def expectValue : Completion → Except Fault Value
  | .value v => .ok v
  | .method m => .error (.operand (.dispatchedMethod m))

/-- The method that a search is expected to end with. -/
def expectMethod : Completion → Except Fault LocatedMethod
  | .method m => .ok m
  | .value v => .error (.operand (.locatedValue v))

def dispatchMany (s : RoutineSet) (t : ClassTable) (index : UInt32) (target : Value)
    (args : List Value) (interceptable : Bool) : Action Fault Value := do
  let completion ← s.execute t .dispatch index ⟨target, .multi args, interceptable⟩
  Action.ofExcept (expectValue completion)

/-- Dispatch with one argument, null for a target that takes none. -/
def dispatchSingle (s : RoutineSet) (t : ClassTable) (index : UInt32) (target arg : Value) :
    Action Fault Value := do
  let completion ← s.execute t .dispatchOne index ⟨target, .single arg, false⟩
  Action.ofExcept (expectValue completion)

def locate (s : RoutineSet) (t : ClassTable) (index : UInt32) : Action Fault LocatedMethod := do
  let completion ← s.execute t .targetMethod index ⟨.null, .multi [], false⟩
  Action.ofExcept (expectMethod completion)

end RoutineSet

end BeanDispatch
