import BeanDispatch.Proofs.Invocation
import BeanDispatch.Proofs.Reaches
import Mathlib.Data.List.Forall2

/-! The shape of the operand stack. What an instruction takes off the stack and puts on it is known
before the code runs, up to the contents of the slots: `effect?` gives the shape after an
instruction that finds enough on the stack, and a branch needs the answer to a question on top.
`step_clean` is the one look at every instruction: on a stack of the right shape the machine does
not fail for a reason that lies in the code, and goes on with a stack of the next shape. Calls are
the exception that stays, since a native body may fail with any fault at all; `CallFails` then names
the call and the body. -/

namespace BeanDispatch

/-! ### Shapes -/

/-- What is known of a slot: nothing, or that it is the answer to a question. -/
inductive Operand
  | content
  | answer
deriving DecidableEq

/-- What is known of a stack, the latest slot first. -/
abbrev Shape := List Operand

def Operand.Fits : Operand → Slot → Prop
  | content, _ => True
  | answer, slot => ∃ on, slot = .bool on

/-- A stack has as many slots as the shape says, each as the shape says. -/
def Shape.Fits (shape : Shape) (stack : Stack) : Prop := List.Forall₂ Operand.Fits shape stack

theorem Shape.Fits.length_eq {shape : Shape} {stack : Stack} (fits : shape.Fits stack) :
    shape.length = stack.length :=
  List.Forall₂.length_eq fits

/-- What a call with this result type leaves on the stack. -/
def resultShape : TypeName → Shape
  | .void => []
  | _ => [.content]

namespace Instruction

/-- The shape after an instruction, if the instruction can run on this one. Nothing is left for the
instruction behind one that ends the case. -/
def effect? : Instruction → Shape → Option Shape
  | .loadTarget, shape => some (.content :: shape)
  | .loadArgument, shape => some (.content :: shape)
  | .loadPositional _, shape => some (.content :: shape)
  | .loadInterceptable, shape => some (.answer :: shape)
  | .pushNull, shape => some (.content :: shape)
  | .checkCast _, _ :: shape => some (.content :: shape)
  | .instanceOf _, _ :: shape => some (.answer :: shape)
  | .branchFalse _, .answer :: shape => some shape
  | .getField _ _ _, _ :: shape => some (.content :: shape)
  | .putField _ _ _, _ :: _ :: shape => some shape
  | .invoke _ _ method, shape =>
    if method.arity < shape.length then
      some (resultShape method.result ++ shape.drop (method.arity + 1))
    else none
  | .box _, _ :: shape => some (.content :: shape)
  | .ret, [_] => some []
  | .resolve _ _ _, [] => some []
  | .unknownIndex, [] => some []
  | _, _ => none

theorem effect?_invoke (kind : CallKind) (owner : String) (method : Signature) (shape : Shape) :
    (invoke kind owner method).effect? shape =
      if method.arity < shape.length then
        some (resultShape method.result ++ shape.drop (method.arity + 1))
      else none := rfl

end Instruction

/-! ### Kinds of dispatch -/

namespace RoutineKind

/-- The arguments that come with a dispatch of this kind. A search comes with none that matter. -/
def Admits : RoutineKind → Arguments → Prop
  | .dispatch, arguments => ∃ values, arguments = .multi values
  | .dispatchOne, arguments => ∃ value, arguments = .single value
  | .targetMethod, _ => True

/-- The instructions that a dispatch of this kind may use. -/
def permits : RoutineKind → Instruction → Bool
  | .dispatch, .loadArgument => false
  | .dispatch, .resolve _ _ _ => false
  | .dispatch, _ => true
  | .dispatchOne, .loadPositional _ => false
  | .dispatchOne, .resolve _ _ _ => false
  | .dispatchOne, _ => true
  | .targetMethod, .resolve _ _ _ => true
  | .targetMethod, .unknownIndex => true
  | .targetMethod, _ => false

/-- How a dispatch of this kind is to end. -/
def Answers : RoutineKind → Completion → Prop
  | .targetMethod, completion => ∃ method, completion = .method method
  | _, completion => ∃ value, completion = .value value

end RoutineKind

/-! ### Faults of the code -/

/-- The faults that tell of wrong code: the stack is too short, a branch finds no answer, an
argument is asked for that this kind of dispatch does not have, the code does not end, or it ends
with the wrong kind of result. -/
def Fault.blamesCode : Fault → Bool
  | .operand .underflow => true
  | .operand .branchCondition => true
  | .operand .noSingleArgument => true
  | .operand .noPositionalArgument => true
  | .operand (.noResult _) => true
  | .operand (.locatedValue _) => true
  | .operand (.dispatchedMethod _) => true
  | .unfinished _ => true
  | _ => false

namespace Machine

/-- The instruction is a call, and the body that it runs on the receiver and the arguments on the
stack fails with the fault and leaves the heap `after`. -/
inductive CallFails (t : ClassTable) (stack : Stack) (h : Heap) :
    Instruction → Fault → Heap → Prop
  | body {callKind : CallKind} {owner : String} {method : Signature} {args : List Slot}
    {receiver : Value} {rest below : Stack} {fault : Fault} {after : Heap}
    (arguments : popArguments method.arity stack = .ok (args, rest))
    (target : popReference rest = .ok (receiver, below))
    (ran : t.Ran method receiver args h (.error fault) after) :
    CallFails t stack h (.invoke callKind owner method) fault after

/-- A run of the whole code came by a call whose body failed with the fault and left this heap. -/
def CalleeFailed (t : ClassTable) (index : UInt32) (call : Call) (code : Array Instruction)
    (h : Heap) (fault : Fault) (after : Heap) : Prop :=
  ∃ c i, Reaches t index call code ⟨0, [], h⟩ c ∧ code[c.address]? = some i ∧
    CallFails t c.stack c.heap i fault after

theorem CallFails.not_search {t : ClassTable} {stack : Stack} {h after : Heap} {i : Instruction}
    {fault : Fault} (failed : CallFails t stack h i fault after) {kind : RoutineKind}
    (permitted : kind.permits i = true) : kind ≠ .targetMethod := by
  rintro rfl
  cases failed
  cases permitted

end Machine

namespace Action

variable {blames : Fault → Bool} {raised : Fault → Heap → Prop} {h : Heap} {α β : Type}

/-- From a heap, the action ends with a result as expected, or fails without blame unless the fault
was raised elsewhere. -/
def Clean (blames : Fault → Bool) (raised : Fault → Heap → Prop) (expected : α → Prop) (h : Heap)
    (x : Action Fault α) : Prop :=
  (∀ a after, x h = (.ok a, after) → expected a) ∧
    ∀ fault after, x h = (.error fault, after) → blames fault = true → raised fault after

theorem Clean.bind {x : Action Fault α} {f : α → Action Fault β} {first : α → Prop}
    {expected : β → Prop} (clean : x.Clean blames raised first h)
    (rest : ∀ a mid, x h = (.ok a, mid) → first a → (f a).Clean blames raised expected mid) :
    (x >>= f).Clean blames raised expected h := by
  constructor
  · intro b after ends
    obtain ⟨a, mid, ran, goes⟩ := exists_of_bind_apply ends
    exact (rest a mid ran (clean.1 a mid ran)).1 b after goes
  · intro fault after fails blamed
    rcases cases_of_bind_apply_error fails with ran | ⟨a, mid, ran, goes⟩
    · exact clean.2 fault after ran blamed
    · exact (rest a mid ran (clean.1 a mid ran)).2 fault after goes blamed

theorem Clean.pure {expected : α → Prop} {a : α} (holds : expected a) :
    (pure a : Action Fault α).Clean blames raised expected h := by
  constructor
  · intro b after ends
    cases ends
    exact holds
  · intro fault after fails
    cases fails

theorem Clean.throw {expected : α → Prop} {fault : Fault} (blameless : blames fault = false) :
    (throw fault : Action Fault α).Clean blames raised expected h := by
  constructor
  · intro b after ends
    cases ends
  · intro other after fails blamed
    cases fails
    rw [blameless] at blamed
    cases blamed

theorem Clean.ofExcept {expected : α → Prop} {result : Except Fault α}
    (holds : ∀ a, result = .ok a → expected a)
    (blameless : ∀ fault, result = .error fault → blames fault = false) :
    (ofExcept result).Clean blames raised expected h := by
  cases result with
  | ok a => exact .pure (holds a rfl)
  | error fault => exact .throw (blameless fault rfl)

theorem Clean.field? (ref : Ref) (name : String) :
    (Action.field? ref name : Action Fault _).Clean blames raised (fun _ => True) h := by
  refine ⟨fun _ _ _ => trivial, fun fault after fails => ?_⟩
  cases fails

theorem Clean.store (ref : Ref) (name : String) (slot : Slot) :
    (Action.store ref name slot : Action Fault Bool).Clean blames raised (fun _ => True) h := by
  refine ⟨fun _ _ _ => trivial, fun fault after fails => ?_⟩
  rw [store_apply] at fails
  cases fails

theorem Clean.mono {x : Action Fault α} {expected : α → Prop}
    (clean : x.Clean blames raised expected h) {fewer : Fault → Bool}
    (blamed : ∀ fault, fewer fault = true → blames fault = true) {wider : Fault → Heap → Prop}
    (raises : ∀ fault after, raised fault after → wider fault after) :
    x.Clean fewer wider expected h :=
  ⟨clean.1, fun fault after fails blame =>
    raises fault after (clean.2 fault after fails (blamed fault blame))⟩

end Action

/-! ### Faults of casts, searches and calls -/

namespace ClassTable

variable {t : ClassTable} {raised : Fault → Heap → Prop} {h : Heap}

theorem cast_clean (value : Value) (type : TypeName) :
    (Action.ofExcept (t.cast value type)).Clean Fault.blamesCode raised (fun _ => True) h := by
  cases type with
  | void => exact .throw rfl
  | named name =>
    rw [cast]
    split
    · exact .pure trivial
    · exact .throw rfl
  | primitive kind =>
    simp only [cast]
    split
    · exact .pure trivial
    · split
      · exact .throw rfl
      · exact .throw rfl

theorem requiredMethod_clean (owner name : String) (params : ParameterList) :
    (Action.ofExcept (t.requiredMethod owner name params)).Clean Fault.blamesCode raised
      (fun _ => True) h := by
  cases found : t.get? owner with
  | none =>
    simp only [requiredMethod, require, found]
    exact .throw rfl
  | some d =>
    simp only [requiredMethod, require, found, bind, Except.bind]
    split
    · exact .pure trivial
    · exact .throw rfl

theorem CallFault.blamesCode {owner : String} {method : Signature} {receiver : Value}
    {fault : Fault} (own : t.CallFault owner method receiver fault) : fault.blamesCode = false := by
  cases own <;> rfl

/-- A call leaves what its result type says. Whatever fault there is to be blamed on the code comes
from the body. -/
theorem invoke_clean (callKind : CallKind) (owner : String) (method : Signature) (receiver : Value)
    (args : List Slot)
    (raises : ∀ fault after, t.Ran method receiver args h (.error fault) after →
      raised fault after) :
    (t.invoke callKind owner method receiver args).Clean Fault.blamesCode raised
      (fun result => (resultShape method.result).Fits result.toList) h := by
  constructor
  · intro result after ends
    rcases invoke_yields ⟨h, after, ends⟩ with ⟨rfl, void⟩ | ⟨slot, rfl, returns⟩
    · rw [void]
      exact .nil
    · cases type : method.result with
      | void =>
        rw [type] at returns
        cases returns
      | primitive | named => exact .cons trivial .nil
  · intro fault after fails blames
    rcases invoke_error fails with own | ran
    · rw [own.blamesCode] at blames
      cases blames
    · exact raises fault after ran

end ClassTable

/-! ### Steps -/

namespace Machine

variable {t : ClassTable} {kind : RoutineKind} {index : UInt32} {call : Call} {i : Instruction}
  {operand : Operand} {shape next : Shape} {stack : Stack} {raised : Fault → Heap → Prop} {h : Heap}

theorem popSlot_clean (fits : Shape.Fits (operand :: shape) stack) :
    (Action.ofExcept (popSlot stack)).Clean Fault.blamesCode raised
      (fun popped => operand.Fits popped.1 ∧ shape.Fits popped.2) h := by
  obtain ⟨slot, rest, top, below, rfl⟩ := List.forall₂_cons_left_iff.1 fits
  exact .pure ⟨top, below⟩

theorem popReference_clean (fits : Shape.Fits (operand :: shape) stack) :
    (Action.ofExcept (popReference stack)).Clean Fault.blamesCode raised
      (fun popped => shape.Fits popped.2) h := by
  obtain ⟨slot, rest, _, below, rfl⟩ := List.forall₂_cons_left_iff.1 fits
  cases slot with
  | ref value => exact .pure below
  | _ => exact .throw rfl

theorem popArguments_clean {n : Nat} (fits : shape.Fits stack) (enough : n ≤ shape.length) :
    (Action.ofExcept (popArguments n stack)).Clean Fault.blamesCode raised
      (fun popped => Shape.Fits (shape.drop n) popped.2) h := by
  rw [popArguments, if_pos (fits.length_eq ▸ enough)]
  exact .pure (List.forall₂_drop n fits)

theorem fieldOwner_clean (owner name : String) (value : Value) :
    (Action.ofExcept (fieldOwner owner name value)).Clean Fault.blamesCode raised
      (fun _ => True) h := by
  refine .ofExcept (fun _ _ => trivial) fun fault fails => ?_
  cases value with
  | object ref => cases fails
  | _ =>
    cases fails
    rfl

theorem singleArgument_clean (permitted : kind.permits .loadArgument = true)
    {arguments : Arguments} (admits : kind.Admits arguments) :
    (Action.ofExcept (singleArgument arguments)).Clean Fault.blamesCode raised
      (fun _ => True) h := by
  cases kind with
  | dispatchOne =>
    obtain ⟨value, rfl⟩ := admits
    exact .pure trivial
  | dispatch | targetMethod => cases permitted

theorem positionalArgument_clean {position : UInt16}
    (permitted : kind.permits (.loadPositional position) = true) {arguments : Arguments}
    (admits : kind.Admits arguments) :
    (Action.ofExcept (positionalArgument position arguments)).Clean Fault.blamesCode raised
      (fun _ => True) h := by
  cases kind with
  | dispatch =>
    obtain ⟨values, rfl⟩ := admits
    rw [positionalArgument]
    cases values[position.toNat]? with
    | some value => exact .pure trivial
    | none => exact .throw rfl
  | dispatchOne | targetMethod => cases permitted

/-- What an instruction leads to has the shape after the instruction. -/
def NextFits (kind : RoutineKind) (i : Instruction) (next : Shape) : Next → Prop
  | .goOn stack => i.isTerminal = false ∧ next.Fits stack
  | .jump target stack => i = .branchFalse target ∧ next.Fits stack
  | .done completion => kind.Answers completion

/-- On a stack of the right shape an instruction goes on with a stack of the next shape, or ends the
case as it should, and no fault is to be blamed on the code but one of the body that it calls. -/
theorem step_clean (permitted : kind.permits i = true) (admits : kind.Admits call.arguments)
    (fits : shape.Fits stack) (effect : i.effect? shape = some next) :
    (step t index call stack i).Clean Fault.blamesCode (CallFails t stack h i) (NextFits kind i next)
      h := by
  cases i with
  | loadTarget | pushNull =>
    cases effect
    exact .pure ⟨rfl, .cons trivial fits⟩
  | loadInterceptable =>
    cases effect
    exact .pure ⟨rfl, .cons ⟨_, rfl⟩ fits⟩
  | loadArgument =>
    cases effect
    apply (singleArgument_clean permitted admits).bind
    intro value _ _ _
    exact .pure ⟨rfl, .cons trivial fits⟩
  | loadPositional position =>
    cases effect
    apply (positionalArgument_clean permitted admits).bind
    intro value _ _ _
    exact .pure ⟨rfl, .cons trivial fits⟩
  | checkCast type =>
    cases shape with
    | nil => cases effect
    | cons operand shape =>
      cases effect
      apply (popReference_clean fits).bind
      rintro ⟨value, rest⟩ _ _ below
      apply (ClassTable.cast_clean value type).bind
      intro slot _ _ _
      exact .pure ⟨rfl, .cons trivial below⟩
  | instanceOf type =>
    cases shape with
    | nil => cases effect
    | cons operand shape =>
      cases effect
      apply (popReference_clean fits).bind
      rintro ⟨value, rest⟩ _ _ below
      exact .pure ⟨rfl, .cons ⟨_, rfl⟩ below⟩
  | branchFalse target =>
    match shape, effect with
    | .answer :: shape, effect =>
      cases effect
      apply (popSlot_clean fits).bind
      rintro ⟨slot, rest⟩ _ _ ⟨⟨on, isBool⟩, below⟩
      obtain rfl : slot = .bool on := isBool
      cases on with
      | true => exact .pure ⟨rfl, below⟩
      | false => exact .pure ⟨rfl, below⟩
  | getField owner name type =>
    cases shape with
    | nil => cases effect
    | cons operand shape =>
      cases effect
      apply (popReference_clean fits).bind
      rintro ⟨value, rest⟩ _ _ below
      apply (fieldOwner_clean owner name value).bind
      intro ref _ _ _
      apply (Action.Clean.field? ref name).bind
      intro found _ _ _
      cases found with
      | some slot => exact .pure ⟨rfl, .cons trivial below⟩
      | none => exact .throw rfl
  | putField owner name type =>
    match shape, effect with
    | _ :: _ :: shape, effect =>
      cases effect
      apply (popSlot_clean fits).bind
      rintro ⟨slot, rest⟩ _ _ ⟨_, below⟩
      apply (popReference_clean below).bind
      rintro ⟨value, rest⟩ _ _ below
      apply (fieldOwner_clean owner name value).bind
      intro ref _ _ _
      apply (Action.Clean.store ref name slot).bind
      intro stored _ _ _
      cases stored with
      | true => exact .pure ⟨rfl, below⟩
      | false => exact .throw rfl
  | invoke callKind owner method =>
    rw [Instruction.effect?_invoke] at effect
    split at effect
    · rename_i enough
      cases effect
      -- The pops leave the heap alone, so the body runs on the heap before the instruction.
      apply (popArguments_clean fits (Nat.le_of_lt enough)).bind
      rintro ⟨args, rest⟩ _ arguments below
      rw [List.drop_eq_getElem_cons enough] at below
      obtain rfl : h = _ := congrArg Prod.snd arguments
      apply (popReference_clean below).bind
      rintro ⟨receiver, left⟩ _ target below
      obtain rfl : h = _ := congrArg Prod.snd target
      have raises : ∀ fault after, t.Ran method receiver args h (.error fault) after →
          CallFails t stack h (.invoke callKind owner method) fault after := fun _ _ ran =>
        .body (congrArg Prod.fst arguments) (congrArg Prod.fst target) ran
      apply (ClassTable.invoke_clean callKind owner method receiver args raises).bind
      intro result _ _ fitsResult
      have both := List.rel_append fitsResult below
      cases result with
      | some slot => exact .pure ⟨rfl, both⟩
      | none => exact .pure ⟨rfl, both⟩
    · cases effect
  | box primitive =>
    cases shape with
    | nil => cases effect
    | cons operand shape =>
      cases effect
      apply (popSlot_clean fits).bind
      rintro ⟨slot, rest⟩ _ _ ⟨_, below⟩
      dsimp only
      split
      · exact .pure ⟨rfl, .cons trivial below⟩
      · exact .throw rfl
  | ret =>
    match shape, effect with
    | [operand], _ =>
      apply (popReference_clean fits).bind
      rintro ⟨value, rest⟩ _ _ _
      cases kind with
      | dispatch | dispatchOne => exact .pure ⟨value, rfl⟩
      | targetMethod => cases permitted
  | resolve owner name params =>
    apply (ClassTable.requiredMethod_clean owner name params).bind
    intro method _ _ _
    cases kind with
    | dispatch | dispatchOne => cases permitted
    | targetMethod => exact .pure ⟨method, rfl⟩
  | unknownIndex => exact .throw rfl

end Machine

end BeanDispatch
