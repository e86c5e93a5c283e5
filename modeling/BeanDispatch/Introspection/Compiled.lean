import BeanDispatch.Introspection

/-! Generated types made of emitted routines. They dispatch by running the routines on a table of
classes, and hold the constructors of the bean type. Interception is off until it is switched on,
and every dispatch follows the switch as it stands. -/

namespace BeanDispatch

/-- The body of a constructor: it makes a bean from checked arguments. -/
abbrev Constructor := ClassTable → List Value → Action Fault Value

/-- A generated type that runs emitted routines. -/
structure CompiledType where
  routines : RoutineSet
  classes : ClassTable
  interceptable : Bool
  /-- The position of the property of each name. -/
  propertyIndex : OrderedMap Nat
  constructor : Option Constructor
  defaultConstructor : Option Constructor

namespace CompiledType

def setInterceptable (g : CompiledType) (on : Bool) : CompiledType := { g with interceptable := on }

def runConstructor (g : CompiledType) (body : Option Constructor) (absent : Uninstantiable)
    (args : List Value) : Action Failure Value :=
  match body with
  | some body => Action.widen .dispatch (body g.classes args)
  | none => throw (.instantiation absent)

instance : GeneratedType CompiledType where
  dispatch g index target args :=
    g.routines.dispatchMany g.classes index target args g.interceptable
  dispatchOne g index target arg := g.routines.dispatchSingle g.classes index target arg
  locate g index := g.routines.locate g.classes index
  isInstance g value type := g.classes.isInstance value type
  construct g args := g.runConstructor g.constructor (.noConstructor g.routines.thisType) args
  constructDefault g := g.runConstructor g.defaultConstructor .noDefaultConstructor []
  findProperty g name _ := g.propertyIndex.get? name

end CompiledType

end BeanDispatch
