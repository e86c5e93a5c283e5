import BeanDispatch.Emission

/-! A writer of case code, operation by operation. What a draft says as data, a writer does in place:
a branch to a label is written with address zero and noted as pending, a label that is placed holds
the number of instructions written so far, and `finish` patches every pending branch once all
instructions are there. A label is a number that the writer hands out. -/

namespace BeanDispatch

/-- Code that is being written for a case. -/
structure CodeWriter where
  /-- The index of the case. -/
  index : UInt32
  code : Array Instruction := #[]
  /-- The address of every label made so far, if it was placed. -/
  places : Array (Option Nat) := #[]
  /-- The addresses of the branches to labels, each with its label, in the order of the code. -/
  pending : Array (Nat × Label) := #[]

namespace CodeWriter

def push (w : CodeWriter) (i : Instruction) : CodeWriter := { w with code := w.code.push i }

/-- Makes a label. Labels are numbered in 32 bits. -/
def newLabel (w : CodeWriter) : Label × CodeWriter :=
  (w.places.size.toUInt32.toNat, { w with places := w.places.push none })

def place (w : CodeWriter) (label : Label) : CodeWriter :=
  { w with places := w.places.setIfInBounds label (some w.code.size) }

def branchFalse (w : CodeWriter) (label : Label) : CodeWriter :=
  { w with pending := w.pending.push (w.code.size, label), code := w.code.push (.branchFalse 0) }

def cast (w : CodeWriter) (type : TypeName) : CodeWriter := w.push (.checkCast type)

/-- Makes the result of a call a reference. -/
def normalizeResult (w : CodeWriter) : TypeName → CodeWriter
  | .void => w.push .pushNull
  | .primitive kind => w.push (.box kind)
  | .named _ => w

/-- The address of a label; a label that was never made has none. -/
def address? (w : CodeWriter) (label : Label) : Option Nat := (w.places[label]?).join

/-- Writes the address of its label into a pending branch. -/
def patch (w : CodeWriter) (code : Array Instruction) (branch : Nat × Label) :
    Except DraftError (Array Instruction) :=
  match w.address? branch.2 with
  | some address => .ok (code.setIfInBounds branch.1 (.branchFalse address.toUInt16))
  | none => .error (.unplaced branch.2)

/-- The code, once all branches have their addresses. -/
def finish (w : CodeWriter) : Except EmitError (Array Instruction) :=
  if Draft.maxAddress < w.code.size then .error (.draft w.index (.tooLong w.code.size))
  else (w.pending.foldlM w.patch w.code).mapError (.draft w.index)

/-- One use of a writer. -/
inductive Operation
  | push (i : Instruction)
  | cast (type : TypeName)
  | normalizeResult (type : TypeName)
  | newLabel
  | place (label : Label)
  | branchFalse (label : Label)

def perform (w : CodeWriter) : Operation → CodeWriter
  | .push i => w.push i
  | .cast type => w.cast type
  | .normalizeResult type => w.normalizeResult type
  | .newLabel => w.newLabel.2
  | .place label => w.place label
  | .branchFalse label => w.branchFalse label

def performAll (w : CodeWriter) (ops : List Operation) : CodeWriter := ops.foldl perform w

/-- Whether all labels that are placed and branched to were made before, `made` of them before the
first operation. -/
def ownLabels (made : Nat) : List Operation → Bool
  | [] => true
  | .newLabel :: rest => ownLabels (made + 1) rest
  | .place label :: rest => decide (label < made) && ownLabels made rest
  | .branchFalse label :: rest => decide (label < made) && ownLabels made rest
  | _ :: rest => ownLabels made rest

end CodeWriter

end BeanDispatch
