import BeanDispatch.Catalog
import BeanDispatch.Emission.Draft
import BeanDispatch.RoutineSet

/-! Emission: the routines of a catalog. Every target that supports a kind of dispatch gets a case
under its index. A method call casts the target and every argument, calls, and makes the result a
reference. An intercepted method first asks whether interception is on and the target is an instance
of the proxy class; if so it calls the bridge there, and otherwise the method itself. Targets are
taken in index order, routine by routine, so the first target that cannot be emitted decides the
error. -/

namespace BeanDispatch

/-- Whether to emit the routine that finds methods. -/
structure EmitOptions where
  locator : Bool := true
deriving DecidableEq

inductive EmitError
  | singleArity (index : UInt32) (method : String) (arity : Nat)
  | foreignTarget (index : UInt32) (expected found : String)
  | tooManyParameters (index : UInt32) (arity : Nat)
  | draft (index : UInt32) (error : DraftError)
  | routine (error : RoutineError)
deriving DecidableEq

def EmitError.message : EmitError → String
  | singleArity index method arity =>
    "method \x60" ++ method ++ "\x60 at index " ++ toString index.toNat ++ " takes " ++
      toString arity ++ " arguments; single-value dispatch passes at most one"
  | foreignTarget index expected found =>
    "intercepted method at index " ++ toString index.toNat ++ " belongs to \x60" ++ found ++
      "\x60, not \x60" ++ expected ++ "\x60"
  | tooManyParameters index arity =>
    "method at index " ++ toString index.toNat ++ " has too many parameters: " ++
      toString arity ++ " (max 65535)"
  | draft index (.tooLong length) =>
    "case " ++ toString index.toNat ++ " is too large: " ++ toString length ++
      " instructions (max 65535)"
  | draft index (.unplaced label) =>
    "case " ++ toString index.toNat ++ " jumps to unplaced label " ++ toString label
  | routine error => error.message

namespace Emission

/-- The number of positions that an instruction can name. -/
def maxParameters : Nat := 65536

def instructions (is : List Instruction) : Draft := is.map .instruction

/-- Makes a call's result a reference: null where there is none, and boxed where it is unboxed. -/
def normalize : TypeName → List Instruction
  | .void => [.pushNull]
  | .primitive kind => [.box kind]
  | .named _ => []

def loadTargetAs (type : String) : List Instruction := [.loadTarget, .checkCast (.named type)]

def loadArguments (params : List TypeName) : List Instruction :=
  params.zipIdx.flatMap fun entry =>
    [.loadPositional entry.2.toUInt16, .checkCast entry.1]

def call (m : MethodTarget) : Instruction :=
  .invoke (if m.viaInterface then .interface else .virtual) m.declaring m.signature

def multiCall (m : MethodTarget) : List Instruction :=
  loadTargetAs m.declaring ++ loadArguments m.signature.params ++
    call m :: normalize m.signature.result ++ [.ret]

/-- Calls a method that takes at most one argument and returns its result. -/
def singleCall (m : MethodTarget) : List Instruction :=
  let argument : List Instruction := match m.signature.params with
    | [] => []
    | type :: _ => [.loadArgument, .checkCast type]
  loadTargetAs m.declaring ++ argument ++ call m :: normalize m.signature.result ++ [.ret]

/-- The label of the direct call of an intercepted method. -/
def direct : Label := 0

/-- The bridge call under its two conditions, then the direct call. -/
def interceptedCall (t : InterceptedTarget) : Draft :=
  [.instruction .loadInterceptable, .branchFalse direct, .instruction .loadTarget,
    .instruction (.instanceOf (.named t.proxy)), .branchFalse direct] ++
  instructions (multiCall t.bridgeMethod) ++ .place direct :: instructions (multiCall t.method)

def readField (f : FieldTarget) : List Instruction :=
  let boxing : List Instruction := match f.type with
    | .primitive kind => [.box kind]
    | _ => []
  loadTargetAs f.owner ++ .getField f.owner f.name f.type :: boxing ++ [.ret]

def writeField (f : FieldTarget) : List Instruction :=
  loadTargetAs f.owner ++
    [.loadArgument, .checkCast f.type, .putField f.owner f.name f.type, .pushNull, .ret]

def checkParameters (index : UInt32) (m : MethodTarget) : Except EmitError Unit :=
  if maxParameters < m.signature.arity then
    .error (.tooManyParameters index m.signature.arity)
  else .ok ()

/-- The draft of a dispatch with a list of arguments, for the generated type `thisType`. -/
def multiDraft (thisType : String) (index : UInt32) : MultiAccess → Except EmitError Draft
  | .call m => do
    checkParameters index m
    return instructions (multiCall m)
  | .intercept t => do
    if t.thisType ≠ thisType then throw (.foreignTarget index thisType t.thisType)
    checkParameters index t.method
    return interceptedCall t

def singleDraft (index : UInt32) : SingleAccess → Except EmitError Draft
  | .read f => .ok (instructions (readField f))
  | .write f => .ok (instructions (writeField f))
  | .call m =>
    if 1 < m.signature.arity then
      .error (.singleArity index (m.declaring ++ "." ++ m.signature.name) m.signature.arity)
    else .ok (instructions (singleCall m))

def locatorDraft (_ : UInt32) (m : MethodTarget) : Except EmitError Draft :=
  .ok (instructions
    [.resolve m.declaring m.signature.name (ParameterList.ofTypes m.signature.params)])

def assembleCase (index : UInt32) (draft : Draft) : Except EmitError Case :=
  match draft.assemble with
  | .ok code => .ok ⟨index, code.toArray⟩
  | .error e => .error (.draft index e)

/-- The routine over all targets that offer something to this kind of dispatch, if there are any. -/
def routineOf {α : Type} (kind : RoutineKind) (offers : List (UInt32 × α))
    (draft : UInt32 → α → Except EmitError Draft) : Except EmitError (Option Routine) := do
  let cases ← offers.mapM fun offer => do assembleCase offer.1 (← draft offer.1 offer.2)
  if cases.isEmpty then return none
  else
    match Routine.assemble kind cases with
    | .ok r => return some r
    | .error e => throw (.routine e)

end Emission

open Emission

def Catalog.emit (c : Catalog) (options : EmitOptions) : Except EmitError RoutineSet := do
  let dispatch ← routineOf .dispatch (c.select Target.multi?) (multiDraft c.thisType)
  let dispatchOne ← routineOf .dispatchOne (c.select Target.single?) singleDraft
  let targetMethod ←
    if options.locator then routineOf .targetMethod (c.select Target.located?) locatorDraft
    else pure none
  return { thisType := c.thisType, intercepted := c.hasIntercepted,
           dispatch, dispatchOne, targetMethod }

end BeanDispatch
