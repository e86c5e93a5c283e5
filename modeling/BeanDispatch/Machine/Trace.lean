import BeanDispatch.Machine

/-! Traces of dispatch runs. A trace is the list of what happened: the routine was entered, an
instruction was reached, a branch was taken, a method was called, and the run completed or failed.
It is recorded as data and rendered afterwards, in full or without instructions and branches. The
machine is the same with and without a trace. -/

namespace BeanDispatch

inductive Event
  | enter (kind : RoutineKind) (index : UInt32) (matched : Bool)
  | instruction (address : UInt16) (i : Instruction)
  | jump (address : UInt16)
  | call (owner : String) (method : Signature)
  | complete (completion : Completion)
  | fault (fault : Fault)

/-- How much of a trace is shown: routines, calls and outcomes, or all of it. -/
inductive Verbosity
  | brief
  | verbose
deriving DecidableEq

namespace Event

def shown : Verbosity → Event → Bool
  | .verbose, _ => true
  | .brief, instruction _ _ => false
  | .brief, jump _ => false
  | .brief, _ => true

/-- `label` names an object. -/
def line (label : Ref → String) : Event → String
  | enter kind index matched =>
    kind.text ++ " #" ++ toString index.toNat ++ if matched then "" else " (default)"
  | instruction address i => codeLine address.toNat i
  | jump address => "      -> " ++ twoDigits address.toNat
  | call owner method => "  call " ++ owner ++ "." ++ method.text
  | complete completion => "  => " ++ completion.text label
  | fault f => "  !! " ++ f.message label

end Event

def traceLines (label : Ref → String) (verbosity : Verbosity) (events : List Event) :
    List String :=
  (events.filter (Event.shown verbosity)).map (Event.line label)

namespace Machine

/-- A call is recorded once its operands are on hand, before the method runs. -/
def callEvent? (stack : Stack) : Instruction → Option Event
  | .invoke _ owner method =>
    match popArguments method.arity stack with
    | .ok (_, rest) =>
      match popReference rest with
      | .ok _ => some (.call owner method)
      | .error _ => none
    | .error _ => none
  | _ => none

/-- Runs code as `run` does and puts what happens in front of `seen`, the latest first. -/
def trace (t : ClassTable) (index : UInt32) (call : Call) (code : Array Instruction) :
    Nat → Nat → Stack → List Event →
      StateM Heap (List Event × Except Fault (Option Completion))
  | 0, _, _, seen => return (seen, .ok none)
  | fuel + 1, address, stack, seen =>
    match code[address]? with
    | none => return (seen, .error (.operand (.noResult index)))
    | some i => do
      let seen := (callEvent? stack i).toList ++ .instruction address.toUInt16 i :: seen
      match ← (step t index call stack i).run with
      | .ok (.goOn stack) => trace t index call code fuel (address + 1) stack seen
      | .ok (.jump target stack) =>
        trace t index call code fuel target.toNat stack (.jump target :: seen)
      | .ok (.done completion) => return (seen, .ok (some completion))
      | .error fault => return (seen, .error fault)

/-- The event that ends a trace. -/
def endEvent : Except Fault Completion → Event
  | .ok completion => .complete completion
  | .error fault => .fault fault

end Machine

/-- Runs the case of an index as `execute` does and records what happens. -/
def RoutineSet.executeTraced (s : RoutineSet) (t : ClassTable) (kind : RoutineKind)
    (index : UInt32) (call : Call) : StateM Heap (List Event × Except Fault Completion) :=
  match s.routine? kind with
  | none =>
    return ([.enter kind index false, .fault (.unknownIndex index)], .error (.unknownIndex index))
  | some r => do
    let code := r.codeFor index
    let enter := Event.enter kind index (r.case? index).isSome
    let (events, result) ← Machine.trace t index call code (Machine.allowance code) 0 [] [enter]
    let result := result.bind fun completion =>
      match completion with
      | some completion => .ok completion
      | none => .error (.unfinished index)
    return ((Machine.endEvent result :: events).reverse, result)

end BeanDispatch
