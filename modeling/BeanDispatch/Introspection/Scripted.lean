import BeanDispatch.Introspection
import BeanDispatch.Script

/-! Generated types put together by hand: given routines on a given table of classes, and a script
as the constructor. An introspection takes any generated type; a compiled one always has the
routines that a builder emits for its members, while this one can have any routines, missing cases
and all. Interception is never on, there is no default constructor, and properties are found by a
plain search, as by every generated type that leaves these to the defaults. -/

namespace BeanDispatch

/-- A generated type with a scripted constructor; `observer` learns of the objects it makes. -/
structure ScriptedType where
  routines : RoutineSet
  classes : ClassTable
  constructor : ConstructorScript
  observer : Script.Observer

instance : GeneratedType ScriptedType where
  dispatch g index target args := g.routines.dispatchMany g.classes index target args false
  dispatchOne g index target arg := g.routines.dispatchSingle g.classes index target arg
  locate g index := g.routines.locate g.classes index
  isInstance g value type := g.classes.isInstance value type
  construct g args := Action.widen .dispatch (g.constructor.run g.observer g.classes args)

end BeanDispatch
