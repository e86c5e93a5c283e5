import BeanDispatch.Instruction

/-! Drafts of case code. A draft is written against labels, which may be placed before or after the
branches to them; `assemble` turns it into code once every label has its address. A label placed
more than once has the address of its last place. The length is checked before any label is looked
up, so an address always fits an instruction. -/

namespace BeanDispatch

abbrev Label := Nat

/-- A line of a draft: an instruction, a branch to a label, or the place of a label. -/
inductive DraftLine
  | instruction (i : Instruction)
  | branchFalse (label : Label)
  | place (label : Label)
deriving DecidableEq

inductive DraftError
  | tooLong (length : Nat)
  | unplaced (label : Label)
deriving DecidableEq

abbrev Draft := List DraftLine

namespace Draft

/-- The greatest address an instruction can hold. -/
def maxAddress : Nat := 65535

/-- What a line adds to the code: an instruction as it stands, or a branch to a label. -/
def step? : DraftLine → Option (Instruction ⊕ Label)
  | .instruction i => some (.inl i)
  | .branchFalse label => some (.inr label)
  | .place _ => none

def steps (d : Draft) : List (Instruction ⊕ Label) := d.filterMap step?

def length (d : Draft) : Nat := d.steps.length

/-- The addresses of the placed labels, the latest place first, from the line at `address` on. -/
def placesFrom (address : Nat) (found : List (Label × Nat)) : Draft → List (Label × Nat)
  | [] => found
  | .place label :: rest => placesFrom address ((label, address) :: found) rest
  | _ :: rest => placesFrom (address + 1) found rest

/-- The address of a label, the number of instructions before its last place. -/
def address? (d : Draft) (label : Label) : Option Nat := (d.placesFrom 0 []).lookup label

/-- The instruction of a step, a label replaced by its address. -/
def resolve (d : Draft) : Instruction ⊕ Label → Except DraftError Instruction
  | .inl i => .ok i
  | .inr label =>
    match d.address? label with
    | some address => .ok (.branchFalse address.toUInt16)
    | none => .error (.unplaced label)

def assemble (d : Draft) : Except DraftError (List Instruction) :=
  if maxAddress < d.length then .error (.tooLong d.length) else d.steps.mapM d.resolve

end Draft

end BeanDispatch
