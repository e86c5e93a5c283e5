import BeanDispatch.Routine

/-! The routines of one generated type, at most one of each kind, and their listing. A routine that
would have no cases is absent. The listing shows every case with its code line by line. -/

namespace BeanDispatch

/-- The routines of a generated type, and whether any of its methods may be intercepted. -/
structure RoutineSet where
  thisType : String
  intercepted : Bool
  dispatch : Option Routine := none
  dispatchOne : Option Routine := none
  targetMethod : Option Routine := none
deriving DecidableEq

namespace RoutineSet

def routine? (s : RoutineSet) : RoutineKind → Option Routine
  | .dispatch => s.dispatch
  | .dispatchOne => s.dispatchOne
  | .targetMethod => s.targetMethod

def install (s : RoutineSet) (r : Routine) : RoutineSet :=
  match r.kind with
  | .dispatch => { s with dispatch := some r }
  | .dispatchOne => { s with dispatchOne := some r }
  | .targetMethod => { s with targetMethod := some r }

/-! ### Listing -/

def codeLines (code : Array Instruction) : List String :=
  code.toList.zipIdx.map fun entry => codeLine entry.2 entry.1

def caseLines (c : Case) : List String :=
  ("case " ++ toString c.key.toNat ++ ":") :: codeLines c.code

def routineLines (kind : RoutineKind) (r : Option Routine) : List String :=
  "" :: ("[" ++ kind.text ++ "]") ::
    match r with
    | none => ["  (absent)"]
    | some r => r.cases.toList.flatMap caseLines ++ "default:" :: codeLines Routine.defaultCode

def listing (s : RoutineSet) : String :=
  let lines := ["[module]", "this = " ++ s.thisType,
      "intercepted = " ++ if s.intercepted then "true" else "false"] ++
    routineLines .dispatch s.dispatch ++ routineLines .dispatchOne s.dispatchOne ++
    routineLines .targetMethod s.targetMethod
  String.join (lines.map fun line => line ++ "\n")

end RoutineSet

end BeanDispatch
