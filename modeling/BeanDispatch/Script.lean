import BeanDispatch.ClassTable

/-! Scripts: native bodies as data. The body of a method is any action on the heap, so a class table
cannot be written down unless its bodies are; a script is a body that can. It is a list of commands
on the receiver and the arguments, the last of which gives the result, and what holds of dispatch
into any table holds of a table of scripts. Objects that a script makes are announced to an observer
at the moment they are made. A scripted constructor does for bean types what a script does for
methods. -/

namespace BeanDispatch

/-- A piece of a text that a script puts together. -/
inductive TextPiece
  | literal (text : String)
  | field (name : String)
  | argument (position : Nat)
  | allArguments

inductive Command
  /-- The content of a field of the receiver, null if it has no such field. -/
  | get (field : String)
  /-- Stores the first argument. -/
  | set (field : String)
  | put (field : String) (slot : Slot)
  | const (slot : Slot)
  | argument (position : Nat)
  | receiver
  /-- A new object like the receiver but for one field, which has the first argument. -/
  | copy (field : String)
  /-- A new object of a class without fields. -/
  | object (cls : String)
  /-- Adds one to a field of integers and tells whether it has reached a limit. -/
  | tick (field : String) (limit : Int32)
  | fail (text : String)
  | format (pieces : List TextPiece)

namespace Script

/-- What learns of a new object. -/
abbrev Observer := Ref → Action Fault Unit

/-- Objects stand in composed texts by their class. -/
def classLabel (ref : Ref) : String := "<" ++ ref.cls ++ ">"

def slotText (slot : Slot) : String := slot.boxed.text classLabel

def kindText (slot : Slot) : String :=
  let kind := match slot.primitive? with
    | some kind => kind.keyword
    | none => "ref"
  kind ++ ":" ++ slotText slot

def pieceText (fields : OrderedMap Slot) (args : List Slot) : TextPiece → String
  | .literal text => text
  | .field name => ((fields.get? name).map slotText).getD "?"
  | .argument position => (args[position]?.map slotText).getD "?"
  | .allArguments => ",".intercalate (args.map kindText)

def makeObject (observer : Observer) (cls : String) (fields : OrderedMap Slot) :
    Action Fault Slot := do
  let ref ← Action.allocate cls fields
  observer ref
  return .ref (.object ref)

def runCommand (observer : Observer) (receiver : Ref) (args : List Slot) :
    Command → Action Fault Slot
  | .get field => return (← Action.field? receiver field).getD Slot.null
  | .set field => do
    discard (Action.store receiver field (args.headD Slot.null))
    return Slot.null
  | .put field slot => do
    discard (Action.store receiver field slot)
    return Slot.null
  | .const slot => return slot
  | .argument position => return args[position]?.getD Slot.null
  | .receiver => return .ref (.object receiver)
  | .copy field => do
    let fields := (← getThe Heap).fields receiver
    makeObject observer receiver.cls
      ((fields.replace? field (args.headD Slot.null)).getD fields)
  | .object cls => makeObject observer cls OrderedMap.empty
  | .tick field limit => do
    let count := match ← Action.field? receiver field with
      | some (.int n) => n + 1
      | _ => 1
    discard (Action.store receiver field (.int count))
    return .bool (limit ≤ count)
  | .fail text => throw (.native text)
  | .format pieces => do
    let fields := (← getThe Heap).fields receiver
    return .ref (.str (String.join (pieces.map (pieceText fields args))))

/-- The native body of a script. -/
def native (observer : Observer) (commands : List Command) : Native :=
  fun receiver args =>
    commands.foldlM (fun _ command => runCommand observer receiver args command) Slot.null

end Script

/-- Constructor bodies as data: failing, giving a fixed value, or making an object of a class and
storing arguments, by position and cast to a type, into its fields. -/
inductive ConstructorScript
  | fail (text : String)
  | give (value : Value)
  | make (cls : String) (fields : List (String × Nat × TypeName))

namespace ConstructorScript

/-- Runs a constructor body; an argument that is not there is null. -/
def run (observer : Script.Observer) (script : ConstructorScript) (t : ClassTable)
    (args : List Value) : Action Fault Value :=
  match script with
  | .fail text => throw (.native text)
  | .give value => return value
  | .make cls fields => do
    let ref ← t.newInstance cls
    observer ref
    fields.forM fun field => do
      let slot ← Action.ofExcept (t.cast (args[field.2.1]?.getD .null) field.2.2)
      discard (Action.store ref field.1 slot)
    return .object ref

end ConstructorScript

end BeanDispatch
