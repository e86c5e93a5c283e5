import BeanDispatch.Instruction

/-! Dispatch routines: branch tables that choose the code of a case by its index. Cases stand in
strictly ascending order of their keys, so the case of an index is found by bisection; an index
without a case runs the default code, which fails. `Routine.assemble` accepts a list of cases only
if the order holds and no case can run past the end of its code, and otherwise names the first
defect of the first defective case. -/

namespace BeanDispatch

/-- What a routine is for: dispatch with a list of arguments, with one argument, or the search for
the method behind an index. -/
inductive RoutineKind
  | dispatch
  | dispatchOne
  | targetMethod
deriving DecidableEq

def RoutineKind.text : RoutineKind → String
  | dispatch => "dispatch"
  | dispatchOne => "dispatch_one"
  | targetMethod => "target_method"

/-- The code of one index. -/
structure Case where
  key : UInt32
  code : Array Instruction
deriving DecidableEq

/-- Why a list of cases makes no routine. -/
inductive Defect
  | unordered (previous key : UInt32)
  | noCode (key : UInt32)
  | unterminated (key : UInt32)
  | jumpOutOfRange (key : UInt32) (address : UInt16) (length : Nat)
deriving DecidableEq

structure RoutineError where
  kind : RoutineKind
  defect : Defect
deriving DecidableEq

def Defect.message : Defect → String
  | unordered previous key =>
    "case keys must be strictly increasing, got " ++ toString key.toNat ++ " after " ++
      toString previous.toNat
  | noCode key => "case " ++ toString key.toNat ++ " has no code"
  | unterminated key => "case " ++ toString key.toNat ++ " falls off the end of its code"
  | jumpOutOfRange key address length =>
    "case " ++ toString key.toNat ++ " jumps to " ++ toString address.toNat ++ ", past its " ++
      toString length ++ " instructions"

def RoutineError.message (e : RoutineError) : String := e.kind.text ++ ": " ++ e.defect.message

namespace Case

def strayJump? (c : Case) : Option UInt16 :=
  (c.code.toList.filterMap Instruction.jumpTarget?).find? fun address =>
    decide (c.code.size ≤ address.toNat)

/-- The defect of the code of a case, if it has one. -/
def defect? (c : Case) : Option Defect :=
  match c.code.back? with
  | none => some (.noCode c.key)
  | some last =>
    if last.isTerminal then
      c.strayJump?.map fun address => .jumpOutOfRange c.key address c.code.size
    else some (.unterminated c.key)

end Case

/-- The first defect of a list of cases after a case with key `previous`. -/
def firstDefect? (previous : Option UInt32) : List Case → Option Defect
  | [] => none
  | c :: rest =>
    match previous with
    | some key =>
      if c.key ≤ key then some (.unordered key c.key)
      else c.defect?.or (firstDefect? (some c.key) rest)
    | none => c.defect?.or (firstDefect? (some c.key) rest)

/-- A branch table over the cases of one kind of dispatch. -/
structure Routine where
  kind : RoutineKind
  cases : Array Case
deriving DecidableEq

namespace Routine

/-- The routine of these cases, unless they have a defect. -/
def assemble (kind : RoutineKind) (cases : List Case) : Except RoutineError Routine :=
  match firstDefect? none cases with
  | some defect => .error ⟨kind, defect⟩
  | none => .ok ⟨kind, cases.toArray⟩

def keys (r : Routine) : List UInt32 := r.cases.toList.map Case.key

/-- What an index without a case runs. -/
def defaultCode : Array Instruction := #[.unknownIndex]

/-- Halves the range from `low` up to `high`, in which alone the key can be. -/
def bisect (cases : Array Case) (key : UInt32) : Nat → Nat → Nat → Option Case
  | 0, _, _ => none
  | fuel + 1, low, high =>
    if low < high then
      let middle := (low + high) / 2
      match cases[middle]? with
      | none => none
      | some c =>
        if c.key = key then some c
        else if c.key < key then bisect cases key fuel (middle + 1) high
        else bisect cases key fuel low middle
    else none

/-- The case of an index. The range shrinks with every step, so its size bounds their number. -/
def case? (r : Routine) (index : UInt32) : Option Case :=
  bisect r.cases index (r.cases.size + 1) 0 r.cases.size

def codeFor (r : Routine) (index : UInt32) : Array Instruction :=
  match r.case? index with
  | some c => c.code
  | none => defaultCode

end Routine

end BeanDispatch
