import BeanDispatch.Signature

/-! Catalogs of dispatch targets. A target is a member of a bean type that can be reached by index:
a field to read, a field to write, or a method, which may be intercepted by a proxy. The index of a
target is its position, and targets are only ever appended, so an index once handed out keeps its
meaning. `multi?`, `single?` and `located?` give what a target offers to dispatch with an argument
list, to dispatch with one argument, and to the search for a method. -/

namespace BeanDispatch

/-- Which kinds of dispatch reach a method: with one argument, with a list, or both. -/
inductive DispatchStyle
  | one
  | multi
  | both
deriving DecidableEq

namespace DispatchStyle

def single : DispatchStyle → Bool
  | multi => false
  | _ => true

def multiple : DispatchStyle → Bool
  | one => false
  | _ => true

end DispatchStyle

structure FieldTarget where
  owner : String
  name : String
  type : TypeName
deriving DecidableEq

/-- A method and the class or interface it is called on. -/
structure MethodTarget where
  declaring : String
  signature : Signature
  viaInterface : Bool
deriving DecidableEq

/-- A method that instances of a proxy class answer with a bridge method of their own, while
interception is on for `thisType`. -/
structure InterceptedTarget where
  method : MethodTarget
  proxy : String
  bridge : String
  thisType : String
deriving DecidableEq

namespace InterceptedTarget

/-- The method that the proxy class answers with. -/
def bridgeSignature (t : InterceptedTarget) : Signature := t.method.signature.renamed t.bridge

def bridgeMethod (t : InterceptedTarget) : MethodTarget := ⟨t.proxy, t.bridgeSignature, false⟩

end InterceptedTarget

/-- A member that can be reached by index. -/
inductive Target
  | fieldGet (field : FieldTarget)
  | fieldSet (field : FieldTarget)
  | method (method : MethodTarget) (style : DispatchStyle)
  | intercepted (target : InterceptedTarget)
deriving DecidableEq

/-- What dispatch with an argument list can do with a target. -/
inductive MultiAccess
  | call (method : MethodTarget)
  | intercept (target : InterceptedTarget)
deriving DecidableEq

/-- What dispatch with one argument can do with a target. -/
inductive SingleAccess
  | read (field : FieldTarget)
  | write (field : FieldTarget)
  | call (method : MethodTarget)
deriving DecidableEq

namespace Target

def multi? : Target → Option MultiAccess
  | method m style => if style.multiple then some (.call m) else none
  | intercepted t => some (.intercept t)
  | _ => none

def single? : Target → Option SingleAccess
  | fieldGet f => some (.read f)
  | fieldSet f => some (.write f)
  | method m style => if style.single then some (.call m) else none
  | intercepted _ => none

/-- The method itself, for an intercepted one the method that the bridge stands in for. -/
def located? : Target → Option MethodTarget
  | method m _ => some m
  | intercepted t => some t.method
  | _ => none

def supportsMulti (t : Target) : Bool := t.multi?.isSome

def supportsSingle (t : Target) : Bool := t.single?.isSome

def isMethod (t : Target) : Bool := t.located?.isSome

def isIntercepted : Target → Bool
  | intercepted _ => true
  | _ => false

def owner : Target → String
  | fieldGet f => f.owner
  | fieldSet f => f.owner
  | method m _ => m.declaring
  | intercepted t => t.method.declaring

end Target

/-- The targets of one generated type, by index. -/
structure Catalog where
  thisType : String
  targets : List Target
deriving DecidableEq

namespace Catalog

def empty (thisType : String) : Catalog := ⟨thisType, []⟩

/-- The index of the next target. -/
def nextIndex (c : Catalog) : UInt32 := c.targets.length.toUInt32

def append (c : Catalog) (target : Target) : Catalog := { c with targets := c.targets ++ [target] }

/-- A target for this catalog's own type that a proxy may intercept. -/
def interceptedTarget (c : Catalog) (method : MethodTarget) (proxy bridge : String) : Target :=
  .intercepted ⟨method, proxy, bridge, c.thisType⟩

def get? (c : Catalog) (index : UInt32) : Option Target := c.targets[index.toNat]?

def hasIntercepted (c : Catalog) : Bool := c.targets.any Target.isIntercepted

/-- What the targets offer under a view, each with the index of its target, in order. -/
def select {α : Type} (c : Catalog) (view : Target → Option α) : List (UInt32 × α) :=
  c.targets.zipIdx.filterMap fun entry =>
    (view entry.1).map fun a => (entry.2.toUInt32, a)

end Catalog

end BeanDispatch
