import BeanDispatch.Proofs.DirectCall

/-! The stages of a call. Before a body runs, the target and the arguments are cast, the receiver is
checked and the body is looked up; none of this touches the heap, and it comes out as an activation
or as a fault. Then the body runs. What it returns is settled without the heap again: dropped for a
void method, checked against the declared result and boxed for any other. `perform` is the three
stages one after the other, and every way to call a method is a `perform` on its own arguments. -/

namespace BeanDispatch

/-- A body that is about to run, with its receiver and arguments. -/
structure Activation where
  body : Native
  receiver : Ref
  args : List Slot

def Activation.run (a : Activation) : Action Fault Slot := a.body a.receiver a.args

/-- Casts what is loaded for the positions from one on to these types. The first position for which
nothing is loaded, or a value that does not fit, decides the fault. -/
def ClassTable.castLoaded (t : ClassTable) (load : Nat → Except Fault Value) :
    Nat → List TypeName → Except Fault (List Slot)
  | _, [] => .ok []
  | position, type :: types => do
    let value ← load position
    let slot ← t.cast value type
    return slot :: (← t.castLoaded load (position + 1) types)

theorem ClassTable.castLoaded_length {t : ClassTable} {load : Nat → Except Fault Value}
    {position : Nat} {types : List TypeName} {slots : List Slot}
    (casts : t.castLoaded load position types = .ok slots) : slots.length = types.length := by
  induction types generalizing position slots with
  | nil => cases casts; rfl
  | cons type types ih =>
    obtain ⟨value, _, rest⟩ := Checked.bind_eq_ok.1 casts
    obtain ⟨slot, _, rest⟩ := Checked.bind_eq_ok.1 rest
    obtain ⟨tail, later, done⟩ := Checked.bind_eq_ok.1 rest
    cases done
    rw [List.length_cons, List.length_cons, ih later]

theorem ClassTable.castLoaded_const (t : ClassTable) (value : Value) (position : Nat)
    (types : List TypeName) :
    t.castLoaded (fun _ => .ok value) position types = types.mapM (t.cast value) := by
  induction types generalizing position with
  | nil => rfl
  | cons type types ih =>
    rw [List.mapM_cons, ← ih (position + 1)]
    rfl

namespace MethodTarget

variable {m : MethodTarget} {t : ClassTable} {target : Value} {slots : List Slot}

/-- The body that a call on the target runs, with its operands. -/
def activate (m : MethodTarget) (t : ClassTable) (target : Value) (slots : List Slot) :
    Except Fault Activation := do
  let ref ← t.checkReceiver (CallKind.ofInterface m.viaInterface) m.declaring m.signature target
  match t.body? ref.cls m.signature.name m.signature.params with
  | some body => return ⟨body, ref, slots⟩
  | none => throw (.noSuchMethod ref.cls m.signature.text)

/-- What happens before the body: the casts, the target first, then the look-up. -/
def activation (m : MethodTarget) (t : ClassTable) (target : Value)
    (slots : Except Fault (List Slot)) : Except Fault Activation := do
  let _ ← t.cast target (.named m.declaring)
  m.activate t target (← slots)

/-- What happens after the body, to the slot that it returned. -/
def settle (m : MethodTarget) (t : ClassTable) (slot : Slot) : Except Fault Value :=
  if m.signature.returnsVoid then .ok .null
  else if t.returns m.signature.result slot then .ok slot.boxed
  else .error (.invalidReturn (memberName m.declaring m.signature.name) m.signature.result.text
    (ClassTable.typeText slot))

/-- A call with these arguments, stage by stage. -/
def perform (m : MethodTarget) (t : ClassTable) (target : Value)
    (slots : Except Fault (List Slot)) : Action Fault Value := do
  let a ← Action.ofExcept (m.activation t target slots)
  let slot ← a.run
  Action.ofExcept (m.settle t slot)

/-- With as many arguments as parameters, a call is its stages. -/
theorem enter_eq (count : slots.length = m.signature.arity) :
    m.enter t target slots = (do
      let a ← Action.ofExcept (m.activate t target slots)
      let slot ← a.run
      Action.ofExcept (m.settle t slot)) := by
  rw [enter, ClassTable.invoke, activate]
  cases t.checkReceiver (CallKind.ofInterface m.viaInterface) m.declaring m.signature target with
  | error fault => rfl
  | ok ref =>
    simp only [Action.ofExcept_ok, pure_bind, if_neg (not_not_intro count)]
    show _ = Action.ofExcept (match t.body? ref.cls m.signature.name m.signature.params with
      | some body => _
      | none => _) >>= _
    cases t.body? ref.cls m.signature.name m.signature.params with
    | none => rfl
    | some body =>
      rw [bind_assoc]
      show _ = body ref slots >>= fun slot => Action.ofExcept (m.settle t slot)
      refine congrArg _ (funext fun slot => ?_)
      rw [settle]
      cases m.signature.returnsVoid with
      | true => rfl
      | false => cases t.returns m.signature.result slot <;> rfl

/-- A call is performed with arguments that are as many as the parameters whenever there are any. -/
theorem perform_eq {slots : Except Fault (List Slot)}
    (count : ∀ found, slots = .ok found → found.length = m.signature.arity) :
    m.perform t target slots = (do
      let _ ← Action.ofExcept (t.cast target (.named m.declaring))
      let found ← Action.ofExcept slots
      m.enter t target found) := by
  rw [perform, activation]
  cases t.cast target (.named m.declaring) with
  | error fault => rfl
  | ok receiver =>
    cases slots with
    | error fault => rfl
    | ok found => exact (enter_eq (count found rfl)).symm

theorem evaluate_eq_perform (target : Value) (args : List Value) :
    m.evaluate t target args =
      m.perform t target (t.castArguments args 0 m.signature.params) := by
  rw [evaluate, perform_eq fun found => ClassTable.castArguments_length]

theorem evaluateWith_eq_perform (target arg : Value) :
    m.evaluateWith t target arg =
      m.perform t target (t.castLoaded (fun _ => .ok arg) 0 m.signature.params) := by
  rw [evaluateWith, perform_eq fun found => ClassTable.castLoaded_length,
    ClassTable.castLoaded_const]

end MethodTarget

end BeanDispatch
