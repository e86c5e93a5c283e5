import BeanDispatch.Catalog
import BeanDispatch.Proofs.Invocation

/-! What a dispatch target means, said without code. A method call casts the target, then takes one
argument after the other, then calls; a field is read or written on the object that the target has
to be. The first step that fails decides the fault. The frame theorems say what each evaluation may
do to the heap: reading leaves it alone, a write that fails leaves it alone, and a call leaves what
at most one run of one body made of it, after every cast succeeded. -/

namespace BeanDispatch

namespace ClassTable

variable {t : ClassTable}

/-- Casts the values from a position on to these types, one position after the other. The first
position that has no value, or a value that does not fit, decides the fault. -/
def castArguments (t : ClassTable) (args : List Value) :
    Nat → List TypeName → Except Fault (List Slot)
  | _, [] => .ok []
  | position, type :: types =>
    match args[position]? with
    | none => .error (.missingArgument position.toUInt16 args.length)
    | some value => do
      let slot ← t.cast value type
      return slot :: (← t.castArguments args (position + 1) types)

theorem castArguments_length {args : List Value} {position : Nat} {types : List TypeName}
    {slots : List Slot} (casts : t.castArguments args position types = .ok slots) :
    slots.length = types.length := by
  induction types generalizing position slots with
  | nil => cases casts; rfl
  | cons type types ih =>
    rw [castArguments] at casts
    split at casts
    · cases casts
    · obtain ⟨slot, _, rest⟩ := Checked.bind_eq_ok.1 casts
      obtain ⟨tail, later, done⟩ := Checked.bind_eq_ok.1 rest
      cases done
      rw [List.length_cons, List.length_cons, ih later]

/-- Where there are enough values, none is missing and the count of values is never asked. -/
theorem castArguments_eq_castAll {args : List Value} {position : Nat} {types : List TypeName}
    (enough : position + types.length ≤ args.length) :
    t.castArguments args position types = t.castAll (args.drop position) types := by
  induction types generalizing position with
  | nil => cases args.drop position <;> rfl
  | cons type types ih =>
    rw [List.length_cons] at enough
    have inside : position < args.length := by omega
    rw [castArguments, List.getElem?_eq_getElem inside, List.drop_eq_getElem_cons inside, castAll,
      ih (by omega)]

theorem castAll_take (args : List Value) (types : List TypeName) :
    t.castAll (args.take types.length) types = t.castAll args types := by
  induction types generalizing args with
  | nil => cases args <;> rfl
  | cons type types ih =>
    cases args with
    | nil => rfl
    | cons arg args => rw [List.length_cons, List.take_succ_cons, castAll, castAll, ih]

theorem castArguments_take (args : List Value) (types : List TypeName) :
    t.castArguments (args.take types.length) 0 types = t.castArguments args 0 types := by
  by_cases enough : types.length ≤ args.length
  · have taken : 0 + types.length ≤ (args.take types.length).length := by
      rw [List.length_take]
      omega
    rw [castArguments_eq_castAll taken, castArguments_eq_castAll (by omega), List.drop_zero,
      List.drop_zero]
    exact castAll_take args types
  · rw [List.take_of_length_le (by omega)]

end ClassTable

/-! ### Methods -/

namespace MethodTarget

variable {m : MethodTarget} {t : ClassTable}

/-- Calls the method on a receiver with contents of its parameters. A void method yields null, and
an unboxed result is boxed. -/
def enter (m : MethodTarget) (t : ClassTable) (receiver : Value) (slots : List Slot) :
    Action Fault Value := do
  return resultValue (← t.invoke (CallKind.ofInterface m.viaInterface) m.declaring m.signature
    receiver slots)

/-- Calls the method on a target with a list of arguments. -/
def evaluate (m : MethodTarget) (t : ClassTable) (target : Value) (args : List Value) :
    Action Fault Value := do
  let _ ← Action.ofExcept (t.cast target (.named m.declaring))
  let slots ← Action.ofExcept (t.castArguments args 0 m.signature.params)
  m.enter t target slots

/-- Calls a method that has at most one parameter, which the argument is for. -/
def evaluateWith (m : MethodTarget) (t : ClassTable) (target arg : Value) :
    Action Fault Value := do
  let _ ← Action.ofExcept (t.cast target (.named m.declaring))
  let slots ← Action.ofExcept (m.signature.params.mapM (t.cast arg))
  m.enter t target slots

theorem evaluate_take (target : Value) (args : List Value) :
    m.evaluate t target (args.take m.signature.arity) = m.evaluate t target args := by
  rw [evaluate, evaluate, Signature.arity, ClassTable.castArguments_take]

theorem evaluateWith_eq (few : m.signature.arity ≤ 1) (target arg : Value) :
    m.evaluateWith t target arg = m.evaluate t target [arg] := by
  rw [evaluateWith, evaluate]
  rw [Signature.arity] at few
  match m.signature.params, few with
  | [], _ => rfl
  | [type], _ => rw [List.mapM_cons, List.mapM_nil]; rfl

/-- The heap after a call is the one before, or what one run of the body that the class of the
target has for the method made of it, every argument having been cast. -/
def RunsAtMostOnce (m : MethodTarget) (t : ClassTable) (target : Value) (args : List Value)
    (before after : Heap) : Prop :=
  after = before ∨ ∃ slots outcome, t.castArguments args 0 m.signature.params = .ok slots ∧
    t.Ran m.signature target slots before outcome after

theorem enter_heap (receiver : Value) (slots : List Slot) (h : Heap) :
    (m.enter t receiver slots h).2 = h ∨
      ∃ outcome, t.Ran m.signature receiver slots h outcome (m.enter t receiver slots h).2 := by
  have kept := ClassTable.invoke_heap (t := t) (CallKind.ofInterface m.viaInterface) m.declaring
    m.signature receiver slots h
  rcases ran : t.invoke (CallKind.ofInterface m.viaInterface) m.declaring m.signature receiver
    slots h with ⟨outcome, after⟩
  rw [ran] at kept
  rw [enter]
  cases outcome with
  | error fault => rwa [Action.bind_apply_error _ ran]
  | ok result => rwa [Action.bind_apply_ok _ ran]

theorem evaluate_heap (target : Value) (args : List Value) (h : Heap) :
    m.RunsAtMostOnce t target args h (m.evaluate t target args h).2 := by
  rw [evaluate]
  cases t.cast target (.named m.declaring) with
  | error fault => exact .inl rfl
  | ok receiver =>
    rw [Action.ofExcept_ok, pure_bind]
    cases casts : t.castArguments args 0 m.signature.params with
    | error fault => exact .inl rfl
    | ok slots =>
      rw [Action.ofExcept_ok, pure_bind]
      rcases enter_heap (m := m) (t := t) target slots h with kept | ⟨outcome, ran⟩
      · exact .inl kept
      · exact .inr ⟨slots, outcome, casts, ran⟩

end MethodTarget

/-! ### Fields -/

namespace FieldTarget

variable {f : FieldTarget} {t : ClassTable}

/-- The object whose field is used. -/
def holder (f : FieldTarget) : Value → Except Fault Ref
  | .null => .error (.nullPointer (.fieldOwner f.owner f.name))
  | .object ref => .ok ref
  | other => .error (.operand (.fieldOwner f.owner f.name other.className))

theorem holder_ok {target : Value} {ref : Ref} (holds : f.holder target = .ok ref) :
    target = .object ref := by
  cases target with
  | object found => cases holds; rfl
  | _ => cases holds

def fetch (f : FieldTarget) (target : Value) : Action Fault Slot := do
  let ref ← Action.ofExcept (f.holder target)
  match ← Action.field? ref f.name with
  | some slot => return slot
  | none => throw (.noSuchField f.owner f.name)

def put (f : FieldTarget) (target : Value) (slot : Slot) : Action Fault Unit := do
  let ref ← Action.ofExcept (f.holder target)
  if ← Action.store ref f.name slot then return ()
  else throw (.noSuchField f.owner f.name)

/-- What a content is as a value: boxed for a primitive type, and a reference for any other. -/
def valueOf (f : FieldTarget) (slot : Slot) : Except Fault Value :=
  match f.type with
  | .primitive kind =>
    if slot.primitive? = some kind then .ok slot.boxed else .error (.operand (.notBoxable kind))
  | _ =>
    match slot with
    | .ref value => .ok value
    | slot => .error (.operand (.notReference slot))

def read (f : FieldTarget) (t : ClassTable) (target : Value) : Action Fault Value := do
  let _ ← Action.ofExcept (t.cast target (.named f.owner))
  let slot ← f.fetch target
  Action.ofExcept (f.valueOf slot)

/-- Writes the field of a target. The value is cast before the target is looked at. -/
def write (f : FieldTarget) (t : ClassTable) (target arg : Value) : Action Fault Value := do
  let _ ← Action.ofExcept (t.cast target (.named f.owner))
  let slot ← Action.ofExcept (t.cast arg f.type)
  f.put target slot
  return .null

theorem fetch_outcome (target : Value) (h : Heap) :
    (∃ fault, f.fetch target h = (.error fault, h)) ∨ ∃ ref slot, target = .object ref ∧
      h.field? ref f.name = some slot ∧ f.fetch target h = (.ok slot, h) := by
  rw [fetch]
  cases holds : f.holder target with
  | error fault => exact .inl ⟨fault, rfl⟩
  | ok ref =>
    rw [Action.ofExcept_ok, pure_bind, Action.bind_apply_ok _ (Action.field?_apply ref f.name h)]
    cases found : h.field? ref f.name with
    | none => exact .inl ⟨_, rfl⟩
    | some slot => exact .inr ⟨ref, slot, holder_ok holds, found, rfl⟩

theorem put_outcome (target : Value) (slot : Slot) (h : Heap) :
    (∃ fault, f.put target slot h = (.error fault, h)) ∨ ∃ ref after, target = .object ref ∧
      h.store? ref f.name slot = some after ∧ f.put target slot h = (.ok (), after) := by
  rw [put]
  cases holds : f.holder target with
  | error fault => exact .inl ⟨fault, rfl⟩
  | ok ref =>
    rw [Action.ofExcept_ok, pure_bind,
      Action.bind_apply_ok _ (Action.store_apply ref f.name slot h)]
    cases done : h.store? ref f.name slot with
    | none => exact .inl ⟨_, rfl⟩
    | some after => exact .inr ⟨ref, after, holder_ok holds, done, rfl⟩

theorem read_heap (target : Value) (h : Heap) : (f.read t target h).2 = h := by
  rw [read]
  cases t.cast target (.named f.owner) with
  | error fault => rfl
  | ok receiver =>
    rw [Action.ofExcept_ok, pure_bind]
    rcases fetch_outcome (f := f) target h with ⟨fault, fails⟩ | ⟨ref, slot, _, _, fetches⟩
    · rw [Action.bind_apply_error _ fails]
    · rw [Action.bind_apply_ok _ fetches]
      cases f.valueOf slot <;> rfl

/-- A write that fails stores nothing; one that succeeds stores the cast argument in the field of
the target and yields null. -/
theorem write_outcome (target arg : Value) (h : Heap) :
    (∃ fault, f.write t target arg h = (.error fault, h)) ∨
      ∃ ref slot after, target = .object ref ∧ t.cast arg f.type = .ok slot ∧
        h.store? ref f.name slot = some after ∧ f.write t target arg h = (.ok .null, after) := by
  rw [write]
  cases t.cast target (.named f.owner) with
  | error fault => exact .inl ⟨fault, rfl⟩
  | ok receiver =>
    rw [Action.ofExcept_ok, pure_bind]
    cases t.cast arg f.type with
    | error fault => exact .inl ⟨fault, rfl⟩
    | ok slot =>
      rw [Action.ofExcept_ok, pure_bind]
      rcases put_outcome (f := f) target slot h with
        ⟨fault, fails⟩ | ⟨ref, after, isObject, done, puts⟩
      · rw [Action.bind_apply_error _ fails]
        exact .inl ⟨fault, rfl⟩
      · rw [Action.bind_apply_ok _ puts]
        exact .inr ⟨ref, slot, after, isObject, rfl, done, rfl⟩

end FieldTarget

/-! ### One argument -/

namespace SingleAccess

/-- Dispatch with one argument. -/
def evaluate (t : ClassTable) (target arg : Value) : SingleAccess → Action Fault Value
  | .read f => f.read t target
  | .write f => f.write t target arg
  | .call m => m.evaluateWith t target arg

/-- What dispatch with one argument may make of the heap `before`: a read leaves it alone, a write
leaves it alone or succeeds, and a call runs one body at most. -/
def Leaves (t : ClassTable) (target arg : Value) (before : Heap)
    (result : Except Fault Value × Heap) : SingleAccess → Prop
  | .read _ => result.2 = before
  | .write f => (∃ fault, result = (.error fault, before)) ∨
      ∃ ref slot after, target = .object ref ∧ t.cast arg f.type = .ok slot ∧
        before.store? ref f.name slot = some after ∧ result = (.ok .null, after)
  | .call m => m.RunsAtMostOnce t target [arg] before result.2

theorem evaluate_leaves {access : SingleAccess} {t : ClassTable}
    (few : ∀ m, access = .call m → m.signature.arity ≤ 1) (target arg : Value) (h : Heap) :
    access.Leaves t target arg h (access.evaluate t target arg h) := by
  cases access with
  | read f => exact f.read_heap target h
  | write f => exact f.write_outcome target arg h
  | call m =>
    rw [evaluate, MethodTarget.evaluateWith_eq (few m rfl)]
    exact m.evaluate_heap target [arg] h

end SingleAccess

/-! ### A small program -/

namespace Counter

def add : MethodTarget := ⟨"Counter", ⟨"add", [.primitive .int], .primitive .int⟩, false⟩

def audited : InterceptedTarget := ⟨add, "AuditedCounter", "addAudited", "CounterType"⟩

def count : FieldTarget := ⟨"Counter", "count", .primitive .int⟩

def catalog : Catalog :=
  ⟨"CounterType", [.fieldGet count, .fieldSet count, .method add .both, .intercepted audited]⟩

/-- Stores the argument and returns it. -/
def keep : Native := fun ref args => do
  let _ ← Action.store ref "count" (args.headD .null)
  return args.headD .null

/-- Counters, and audited counters, which return zero and store nothing. -/
def classes : ClassTable where
  defs :=
    { (ClassDef.ofClass "AuditedCounter").extending "Counter" with
      methods := [⟨audited.bridgeSignature, some fun _ _ => return .int 0⟩] } ::
    { ClassDef.ofClass "Counter" with
      fields := [⟨"count", .int 0⟩]
      methods := [⟨add.signature, some keep⟩] } :: ClassTable.builtin.defs

def heap : Heap := ⟨#[OrderedMap.ofList [("count", .int 5)]]⟩

def counter : Value := .object ⟨0, "Counter"⟩

def auditedCounter : Value := .object ⟨0, "AuditedCounter"⟩

end Counter

end BeanDispatch
