import BeanDispatch.Emission
import BeanDispatch.Proofs.CallStages
import BeanDispatch.Proofs.Reaches

/-! The code of method calls, run. The operand stack is the invariant: while arguments are loaded it
holds the target and the arguments cast so far, the latest first, on top of whatever was there
before, so a call may stand anywhere in a case. After the call the stack holds at most the result,
which the declared type of the method turns into a reference. `RunsTo.callWith` puts the parts
together: the code of a call performs it, with whatever values its instructions load. -/

namespace BeanDispatch

/-- The instructions with which an intercepted case finds out what to call. -/
def Instruction.asks : Instruction → Bool
  | .loadInterceptable | .instanceOf _ | .branchFalse _ => true
  | _ => false

namespace Emission

/-- The code of a call that loads its arguments with these instructions. -/
def callWith (load : Nat → Instruction) (m : MethodTarget) : List Instruction :=
  loadTargetAs m.declaring ++
    (m.signature.params.zipIdx.flatMap fun entry => [load entry.2, .checkCast entry.1]) ++
    call m :: normalize m.signature.result ++ [.ret]

theorem length_loadsWith (load : Nat → Instruction) (types : List TypeName) (position : Nat) :
    ((types.zipIdx position).flatMap fun entry => [load entry.2, .checkCast entry.1]).length =
      2 * types.length := by
  simp [List.length_flatMap, List.map_const', Nat.mul_comm]

theorem length_loadArguments (types : List TypeName) :
    (loadArguments types).length = 2 * types.length :=
  length_loadsWith (fun position => .loadPositional position.toUInt16) types 0

theorem asks_loadArguments (params : List TypeName) :
    ∀ i ∈ loadArguments params, i.asks = false := by
  intro i member
  obtain ⟨entry, _, listed⟩ := List.mem_flatMap.1 member
  simp only [List.mem_cons, List.not_mem_nil, or_false] at listed
  rcases listed with rfl | rfl <;> rfl

theorem asks_normalize (type : TypeName) : ∀ i ∈ normalize type, i.asks = false := by
  cases type <;> simp [normalize, Instruction.asks]

theorem asks_multiCall (m : MethodTarget) : ∀ i ∈ multiCall m, i.asks = false := by
  simp only [multiCall, List.forall_mem_append, List.forall_mem_cons]
  refine ⟨⟨⟨?_, asks_loadArguments _⟩, rfl, asks_normalize _⟩, rfl, ?_⟩
  · simp [loadTargetAs, Instruction.asks]
  · simp

end Emission

namespace Call

/-- The argument that a dispatch of this kind loads for a position. -/
def argument (call : Call) : RoutineKind → Nat → Except Fault Value
  | .dispatchOne, _ => Machine.singleArgument call.arguments
  | _, position => Machine.positionalArgument position.toUInt16 call.arguments

/-- The arguments of a dispatch, cast to these parameter types. -/
def slots (call : Call) (t : ClassTable) (kind : RoutineKind) (types : List TypeName) :
    Except Fault (List Slot) :=
  t.castLoaded (call.argument kind) 0 types

end Call

end BeanDispatch

namespace BeanDispatch.Machine

open Emission (maxParameters loadTargetAs multiCall callWith)

variable {t : ClassTable} {index : UInt32} {call : Call} {code : Array Instruction} {address : Nat}
  {stack : Stack}

/-! ### Instructions -/

theorem RunsTo.checkCast {value : Value} {type : TypeName} {rest : Slot → Action Fault Completion}
    (here : code[address]? = some (.checkCast type))
    (goes : ∀ slot, t.cast value type = .ok slot →
      RunsTo t index call code (address + 1) (slot :: stack) (rest slot)) :
    RunsTo t index call code address (.ref value :: stack)
      (Action.ofExcept (t.cast value type) >>= rest) :=
  .goOn here (f := fun slot => slot :: stack) rfl fun slot yields =>
    goes slot (Action.yields_ofExcept.1 yields)

theorem RunsTo.ret {value : Value} (here : code[address]? = some .ret) :
    RunsTo t index call code address (.ref value :: stack) (pure (.value value)) :=
  .done here (f := Completion.value) (x := pure value) rfl

theorem positionalArgument_multi {args : List Value} {position : Nat}
    (small : position < maxParameters) :
    positionalArgument position.toUInt16 (.multi args) =
      match args[position]? with
      | some value => .ok value
      | none => .error (.missingArgument position.toUInt16 args.length) := by
  have exact_position : position.toUInt16.toNat = position := UInt16.toNat_ofNat_of_lt small
  cases found : args[position]? <;> simp only [positionalArgument, exact_position, found]

/-- Loading a list of arguments by position is what casting it does. -/
theorem castLoaded_positional {args : List Value} {position : Nat} {types : List TypeName}
    (fits : position + types.length ≤ maxParameters) :
    t.castLoaded (fun position => positionalArgument position.toUInt16 (.multi args)) position
      types = t.castArguments args position types := by
  induction types generalizing position with
  | nil => rfl
  | cons type types ih =>
    rw [List.length_cons] at fits
    rw [ClassTable.castLoaded, ClassTable.castArguments, positionalArgument_multi (by omega),
      ih (by omega)]
    cases args[position]? <;> rfl

theorem slots_multi {args : List Value} (listed : call.arguments = .multi args)
    {types : List TypeName} (few : types.length ≤ maxParameters) :
    call.slots t .dispatch types = t.castArguments args 0 types := by
  rw [← castLoaded_positional (by rwa [Nat.zero_add]), ← listed]
  rfl

theorem popArguments_append (slots : List Slot) (rest : Stack) :
    popArguments slots.length (slots.reverse ++ rest) = .ok (slots, rest) := by
  have taken : (slots.reverse ++ rest).take slots.length = slots.reverse := by
    rw [← List.length_reverse, List.take_left]
  have dropped : (slots.reverse ++ rest).drop slots.length = rest := by
    rw [← List.length_reverse, List.drop_left]
  rw [popArguments, if_pos (by simp), taken, dropped, List.reverse_reverse]

/-- A call takes its arguments and its receiver off the stack and leaves its result, if any. -/
theorem step_invoke (kind : CallKind) (owner : String) (method : Signature) (receiver : Value)
    {slots : List Slot} (count : slots.length = method.arity) :
    step t index call (slots.reverse ++ .ref receiver :: stack) (.invoke kind owner method) =
      t.invoke kind owner method receiver slots >>= fun result =>
        pure (.goOn (result.toList ++ stack)) := by
  have pops : popReference (.ref receiver :: stack) = .ok (receiver, stack) := rfl
  simp only [step, ← count, popArguments_append, pops, Action.ofExcept_ok, pure_bind]
  refine congrArg _ (funext fun result => ?_)
  cases result <;> rfl

/-! ### Parts of a call -/

theorem RunsTo.loadTargetAs {type : String} {outcome : Action Fault Completion}
    (holds : Holds code address (loadTargetAs type))
    (goes : RunsTo t index call code (address + 2) (.ref call.target :: stack) outcome) :
    RunsTo t index call code address stack
      (do let _ ← Action.ofExcept (t.cast call.target (.named type)); outcome) := by
  obtain ⟨load, holds⟩ := holds_cons.1 holds
  obtain ⟨cast, _⟩ := holds_cons.1 holds
  refine .goOn_pure load rfl (.checkCast cast fun slot casts => ?_)
  rw [ClassTable.cast_named casts]
  exact goes

/-- Loading and casting what there is for the positions from one on leaves the contents on the
stack. -/
theorem RunsTo.loads {load : Nat → Instruction} {values : Nat → Except Fault Value}
    (steps : ∀ position stack, step t index call stack (load position) =
      Action.ofExcept (values position) >>= fun value => pure (.goOn (.ref value :: stack)))
    {types : List TypeName} {position : Nat} {rest : List Slot → Action Fault Completion}
    (holds : Holds code address ((types.zipIdx position).flatMap fun entry =>
      [load entry.2, .checkCast entry.1]))
    (goes : ∀ slots, t.castLoaded values position types = .ok slots →
      RunsTo t index call code (address + 2 * types.length) (slots.reverse ++ stack)
        (rest slots)) :
    RunsTo t index call code address stack
      (Action.ofExcept (t.castLoaded values position types) >>= rest) := by
  induction types generalizing position address stack rest with
  | nil =>
    rw [ClassTable.castLoaded, Action.ofExcept_ok, pure_bind]
    exact goes [] rfl
  | cons type types ih =>
    obtain ⟨loads, holds⟩ := holds_cons.1 holds
    obtain ⟨cast, holds⟩ := holds_cons.1 holds
    rw [ClassTable.castLoaded] at goes ⊢
    rw [Action.ofExcept_bind, bind_assoc]
    refine .goOn loads (f := fun value => .ref value :: stack) (steps position stack)
      fun value found => ?_
    rw [Action.ofExcept_bind, bind_assoc]
    refine .checkCast cast fun slot fits => ?_
    rw [Action.ofExcept_bind, bind_assoc]
    refine ih holds fun slots casts => ?_
    have next : address + 2 * (type :: types).length = address + 1 + 1 + 2 * types.length := by
      rw [List.length_cons]
      omega
    have reached := goes (slot :: slots) (Checked.bind_eq_ok.2 ⟨value,
      Action.yields_ofExcept.1 found, Checked.bind_eq_ok.2 ⟨slot, fits,
        Checked.bind_eq_ok.2 ⟨slots, casts, rfl⟩⟩⟩)
    rw [next, List.reverse_cons, List.append_assoc] at reached
    exact reached

/-- A result that the method may return becomes the value of the case. -/
theorem RunsTo.normalize {type : TypeName} {result : Option Slot}
    (fits : result = none ∧ type = .void ∨
      ∃ slot, result = some slot ∧ t.returns type slot = true)
    (holds : Holds code address (Emission.normalize type ++ [.ret])) :
    RunsTo t index call code address (result.toList ++ stack)
      (pure (.value (resultValue result))) := by
  rcases fits with ⟨rfl, rfl⟩ | ⟨slot, rfl, returns⟩
  · obtain ⟨push, holds⟩ := holds_cons.1 holds
    obtain ⟨ret, _⟩ := holds_cons.1 holds
    exact .goOn_pure push rfl (.ret ret)
  · cases type with
    | void => cases returns
    | primitive kind =>
      obtain ⟨box, holds⟩ := holds_cons.1 holds
      obtain ⟨ret, _⟩ := holds_cons.1 holds
      have boxes : step t index call (slot :: stack) (.box kind) =
          pure (.goOn (.ref slot.boxed :: stack)) := by
        have same : slot.primitive? = some kind := of_decide_eq_true returns
        exact if_pos same
      exact .goOn_pure box boxes (.ret ret)
    | named name =>
      obtain ⟨ret, _⟩ := holds_cons.1 holds
      cases slot with
      | ref value => exact .ret ret
      | _ => cases returns

theorem RunsTo.enter {m : MethodTarget} {receiver : Value} {slots : List Slot}
    (count : slots.length = m.signature.arity)
    (holds : Holds code address
      (Emission.call m :: Emission.normalize m.signature.result ++ [.ret])) :
    RunsTo t index call code address (slots.reverse ++ .ref receiver :: stack)
      (Completion.value <$> m.enter t receiver slots) := by
  obtain ⟨invoke, holds⟩ := holds_cons.1 holds
  rw [MethodTarget.enter, map_bind]
  simp only [map_pure]
  exact .goOn invoke (step_invoke _ _ _ receiver count) fun result yields =>
    .normalize (ClassTable.invoke_yields yields) holds

/-- The code of a call performs it with the values that it loads. -/
theorem RunsTo.callWith {m : MethodTarget} {load : Nat → Instruction}
    {values : Nat → Except Fault Value}
    (steps : ∀ position stack, step t index call stack (load position) =
      Action.ofExcept (values position) >>= fun value => pure (.goOn (.ref value :: stack)))
    (holds : Holds code address (callWith load m)) :
    RunsTo t index call code address stack (Completion.value <$>
      m.perform t call.target (t.castLoaded values 0 m.signature.params)) := by
  rw [Emission.callWith, List.append_assoc, List.append_assoc, holds_append, holds_append] at holds
  obtain ⟨target, arguments, tail⟩ := holds
  rw [MethodTarget.perform_eq fun _ => ClassTable.castLoaded_length]
  simp only [map_bind]
  refine .loadTargetAs target (.loads steps arguments fun slots casts => ?_)
  rw [Emission.length_loadsWith] at tail
  exact .enter (ClassTable.castLoaded_length casts) tail

/-- The code of a call with an argument list performs it with the arguments of the dispatch. -/
theorem RunsTo.multiCall {m : MethodTarget} (holds : Holds code address (multiCall m)) :
    RunsTo t index call code address stack (Completion.value <$>
      m.perform t call.target (call.slots t .dispatch m.signature.params)) := by
  have loads : ∀ (position : Nat) stack, step t index call stack
      (.loadPositional position.toUInt16) =
        Action.ofExcept (call.argument .dispatch position) >>= fun value =>
          pure (.goOn (.ref value :: stack)) := fun _ _ => rfl
  exact .callWith loads holds

/-! ### Moving through a call -/

/-- The next instruction is one of these, which stand from an address on. -/
def Within (start : Nat) (is : List Instruction) (c : Configuration) : Prop :=
  start ≤ c.address ∧ c.address < start + is.length

theorem within_start {start : Nat} {m : MethodTarget} {stack : Stack} {h : Heap} :
    Within start (multiCall m) ⟨start, stack, h⟩ := by
  have nonempty : 0 < (multiCall m).length := by
    rw [multiCall, List.length_append]
    exact Nat.succ_pos _
  exact ⟨Nat.le_refl start, Nat.lt_add_of_pos_right nonempty⟩

theorem branchFalse_notMem_multiCall (m : MethodTarget) (target : UInt16) :
    .branchFalse target ∉ multiCall m := by
  intro member
  cases Emission.asks_multiCall m _ member

/-- A call goes on to its next instruction until it returns. -/
theorem Moves.within {a b : Configuration} (moves : Moves t index call code a b) {start : Nat}
    {m : MethodTarget} (holds : Holds code start (multiCall m))
    (inside : Within start (multiCall m) a) :
    b.address = a.address + 1 ∧ Within start (multiCall m) b := by
  obtain ⟨after, before⟩ := inside
  obtain ⟨position, reached⟩ := Nat.exists_eq_add_of_le after
  have below : position < (multiCall m).length := by omega
  have here : code[a.address]? = some (multiCall m)[position] := by
    rw [reached, holds.getElem? below]
  have next : b.address = a.address + 1 := by
    refine moves.address_succ fun target branches => ?_
    rw [here] at branches
    exact branchFalse_notMem_multiCall m target (Option.some.inj branches ▸ List.getElem_mem below)
  refine ⟨next, by omega, ?_⟩
  by_cases last : position + 1 = (multiCall m).length
  · have isRet : (multiCall m)[position] = .ret := by
      rw [multiCall, List.length_append] at last
      exact List.getElem_concat_length (Nat.succ.inj last) below
    rw [isRet] at here
    exact absurd moves (not_moves_ret here)
  · omega

end BeanDispatch.Machine
