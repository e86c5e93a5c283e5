import BeanDispatch.Proofs.CallCode
import BeanDispatch.Proofs.EmittedCode

/-! Dispatch with one argument. A field is read or written and a method with at most one parameter
is called exactly as said without code, in the same order: the cast of the target, the cast of the
argument, then what the kind of target asks for. What a field holds need not be of its declared
type, so a read checks it. -/

namespace BeanDispatch

open Emission

/-! ### The code -/

/-- There is at most one argument to load. -/
theorem Emission.singleCall_eq {m : MethodTarget} (few : m.signature.arity ≤ 1) :
    singleCall m = callWith (fun _ => .loadArgument) m := by
  rw [Signature.arity] at few
  rw [singleCall, callWith]
  cases params : m.signature.params with
  | nil => rfl
  | cons type rest =>
    rw [params, List.length_cons] at few
    obtain rfl : rest = [] := List.length_eq_zero_iff.1 (by omega)
    rfl

namespace Machine

variable {t : ClassTable} {index : UInt32} {call : Call} {code : Array Instruction}
  {address : Nat} {stack : Stack}

theorem RunsTo.loadArgumentAs {arg : Value} {type : TypeName}
    {rest : Slot → Action Fault Completion} (single : call.arguments = .single arg)
    (load : code[address]? = some .loadArgument)
    (check : code[address + 1]? = some (.checkCast type))
    (goes : ∀ slot, t.cast arg type = .ok slot →
      RunsTo t index call code (address + 2) (slot :: stack) (rest slot)) :
    RunsTo t index call code address stack (Action.ofExcept (t.cast arg type) >>= rest) := by
  have loads : step t index call stack .loadArgument = pure (.goOn (.ref arg :: stack)) := by
    simp only [step, single, singleArgument, Action.ofExcept_ok, pure_bind]
  exact .goOn_pure load loads (.checkCast check goes)

theorem step_getField (f : FieldTarget) (target : Value) :
    step t index call (.ref target :: stack) (.getField f.owner f.name f.type) =
      f.fetch target >>= fun slot => pure (.goOn (slot :: stack)) := by
  have pops : popReference (.ref target :: stack) = .ok (target, stack) := rfl
  have same : fieldOwner f.owner f.name target = f.holder target := by cases target <;> rfl
  simp only [step, pops, Action.ofExcept_ok, pure_bind, FieldTarget.fetch, bind_assoc, same]
  refine congrArg _ (funext fun ref => congrArg _ (funext fun found => ?_))
  cases found <;> rfl

theorem step_putField (f : FieldTarget) (target : Value) (slot : Slot) :
    step t index call (slot :: .ref target :: stack) (.putField f.owner f.name f.type) =
      f.put target slot >>= fun _ => pure (.goOn stack) := by
  have popsSlot : popSlot (slot :: .ref target :: stack) = .ok (slot, .ref target :: stack) := rfl
  have pops : popReference (.ref target :: stack) = .ok (target, stack) := rfl
  have same : fieldOwner f.owner f.name target = f.holder target := by cases target <;> rfl
  simp only [step, popsSlot, pops, Action.ofExcept_ok, pure_bind, FieldTarget.put, bind_assoc, same]
  refine congrArg _ (funext fun ref => congrArg _ (funext fun stored => ?_))
  cases stored <;> rfl

theorem RunsTo.valueOf {f : FieldTarget} {slot : Slot}
    (holds : Holds code address ((match f.type with
      | .primitive kind => [.box kind]
      | _ => []) ++ [.ret])) :
    RunsTo t index call code address (slot :: stack)
      (Completion.value <$> Action.ofExcept (f.valueOf slot)) := by
  cases type : f.type with
  | primitive kind =>
    rw [type] at holds
    obtain ⟨box, holds⟩ := holds_cons.1 holds
    obtain ⟨ret, _⟩ := holds_cons.1 holds
    simp only [FieldTarget.valueOf, type]
    by_cases fits : slot.primitive? = some kind
    · rw [if_pos fits]
      exact .goOn_pure box (if_pos fits) (.ret ret)
    · rw [if_neg fits]
      exact .fails box (if_neg fits)
  | named | void =>
    rw [type] at holds
    obtain ⟨ret, _⟩ := holds_cons.1 holds
    simp only [FieldTarget.valueOf, type]
    cases slot with
    | ref value => exact .ret ret
    | _ => exact .fails ret rfl

theorem RunsTo.readField {f : FieldTarget} (holds : Holds code address (readField f)) :
    RunsTo t index call code address stack (Completion.value <$> f.read t call.target) := by
  rw [Emission.readField, List.append_assoc, holds_append] at holds
  obtain ⟨target, holds⟩ := holds
  obtain ⟨get, holds⟩ := holds_cons.1 holds
  rw [FieldTarget.read]
  simp only [map_bind]
  exact .loadTargetAs target (.goOn get (step_getField f call.target) fun slot _ =>
    .valueOf holds)

theorem RunsTo.writeField {f : FieldTarget} {arg : Value} (single : call.arguments = .single arg)
    (holds : Holds code address (writeField f)) :
    RunsTo t index call code address stack (Completion.value <$> f.write t call.target arg) := by
  obtain ⟨target, holds⟩ := holds_append.1 holds
  obtain ⟨load, holds⟩ := holds_cons.1 holds
  obtain ⟨check, holds⟩ := holds_cons.1 holds
  obtain ⟨put, holds⟩ := holds_cons.1 holds
  obtain ⟨push, holds⟩ := holds_cons.1 holds
  obtain ⟨ret, _⟩ := holds_cons.1 holds
  rw [FieldTarget.write]
  simp only [map_bind, map_pure]
  exact .loadTargetAs target (.loadArgumentAs single load check fun slot _ =>
    .goOn put (step_putField f call.target slot) fun _ _ => .goOn_pure push rfl (.ret ret))

/-- The code of a call with one argument performs it with the argument of the dispatch. -/
theorem RunsTo.singleCall {m : MethodTarget} (few : m.signature.arity ≤ 1)
    (holds : Holds code address (singleCall m)) :
    RunsTo t index call code address stack (Completion.value <$>
      m.perform t call.target (call.slots t .dispatchOne m.signature.params)) := by
  have loads : ∀ (position : Nat) stack, step t index call stack .loadArgument =
      Action.ofExcept (call.argument .dispatchOne position) >>= fun value =>
        pure (.goOn (.ref value :: stack)) := fun _ _ => rfl
  exact .callWith loads (singleCall_eq few ▸ holds)

end Machine

/-! ### The dispatch -/

/-- A method with one argument is emitted only if it takes no more. -/
theorem Emission.arity_le_of_singleDraft {index : UInt32} {m : MethodTarget} {d : Draft}
    (drawn : singleDraft index (.call m) = .ok d) :
    m.signature.arity ≤ 1 ∧ d = instructions (singleCall m) := by
  rw [singleDraft] at drawn
  split at drawn
  · cases drawn
  · rename_i few
    cases drawn
    exact ⟨Nat.le_of_not_lt few, rfl⟩

namespace RoutineSet

variable {c : Catalog} {options : EmitOptions} {s : RoutineSet} {index : UInt32}

theorem dispatchSingle_eq {code : Array Instruction}
    (runs : s.codeFor? .dispatchOne index = some code) {t : ClassTable} {target arg : Value}
    {outcome : Action Fault Value}
    (ends : Machine.RunsTo t index ⟨target, .single arg, false⟩ code 0 []
      (Completion.value <$> outcome)) :
    s.dispatchSingle t index target arg = outcome := by
  rw [dispatchSingle, execute_eq_of_runsTo runs ends]
  exact Action.map_bind_ofExcept fun _ => rfl

/-- The offer of a target is dispatched as it is evaluated, under every index that stands for it. -/
theorem dispatchSingle_offer {access : SingleAccess} (emitted : c.emit options = .ok s)
    (offered : (index, access) ∈ c.select Target.single?) :
    (∀ m, access = .call m → m.signature.arity ≤ 1) ∧ ∀ t target arg,
      s.dispatchSingle t index target arg = access.evaluate t target arg := by
  obtain ⟨d, code, drawn, assembled, runs⟩ :=
    routineOf_code (Catalog.emit_routines emitted).2.1 offered
  cases access with
  | read f =>
    cases drawn
    obtain ⟨rfl, _⟩ := assemble_instructions assembled
    refine ⟨nofun, fun t target arg => dispatchSingle_eq runs ?_⟩
    exact .readField (Machine.holds_toArray _)
  | write f =>
    cases drawn
    obtain ⟨rfl, _⟩ := assemble_instructions assembled
    refine ⟨nofun, fun t target arg => dispatchSingle_eq runs ?_⟩
    exact .writeField rfl (Machine.holds_toArray _)
  | call m =>
    obtain ⟨few, rfl⟩ := arity_le_of_singleDraft drawn
    obtain ⟨rfl, _⟩ := assemble_instructions assembled
    refine ⟨fun n isCall => ?_, fun t target arg => dispatchSingle_eq runs ?_⟩
    · cases isCall
      exact few
    · rw [SingleAccess.evaluate, MethodTarget.evaluateWith_eq_perform]
      exact .singleCall few (Machine.holds_toArray _)

theorem dispatchSingle_access {entry : Target} {access : SingleAccess}
    (emitted : c.emit options = .ok s) (present : c.get? index = some entry)
    (offers : entry.single? = some access) :
    (∀ m, access = .call m → m.signature.arity ≤ 1) ∧ ∀ t target arg,
      s.dispatchSingle t index target arg = access.evaluate t target arg :=
  dispatchSingle_offer emitted (Catalog.mem_select present offers)

/-- Dispatching a target with one argument is reading or writing its field or calling its method
directly, faults and their order included. A failing step leaves the heap as it was. -/
theorem dispatchSingle_evaluates {entry : Target} {access : SingleAccess}
    (emitted : c.emit options = .ok s) (present : c.get? index = some entry)
    (offers : entry.single? = some access) (t : ClassTable) (target arg : Value) :
    s.dispatchSingle t index target arg = access.evaluate t target arg ∧
      (∀ m, access = .call m → m.signature.arity ≤ 1) ∧
      ∀ h, access.Leaves t target arg h (s.dispatchSingle t index target arg h) := by
  obtain ⟨few, evaluates⟩ := dispatchSingle_access emitted present offers
  refine ⟨evaluates t target arg, few, fun h => ?_⟩
  rw [evaluates]
  exact access.evaluate_leaves few target arg h

/-- A read, a write with the heap that it leaves, a write of null to a primitive field, which leaves
the heap alone, and a call. -/
theorem dispatchSingle_evaluates_counter : ∃ s, Counter.catalog.emit {} = .ok s ∧
    s.dispatchSingle Counter.classes 0 Counter.counter .null Counter.heap =
      (.ok (.int 5), Counter.heap) ∧
    s.dispatchSingle Counter.classes 1 Counter.counter (.int 8) Counter.heap =
      (.ok .null, ⟨#[OrderedMap.ofList [("count", .int 8)]]⟩) ∧
    s.dispatchSingle Counter.classes 1 Counter.counter .null Counter.heap =
      (.error (.nullPointer (.unboxing .int)), Counter.heap) ∧
    s.dispatchSingle Counter.classes 2 Counter.counter (.int 3) Counter.heap =
      (.ok (.int 3), ⟨#[OrderedMap.ofList [("count", .int 3)]]⟩) := by
  obtain ⟨s, emitted⟩ : ∃ s, Counter.catalog.emit {} = .ok s := ⟨_, rfl⟩
  have get : Counter.catalog.get? 0 = some (.fieldGet Counter.count) := rfl
  have set : Counter.catalog.get? 1 = some (.fieldSet Counter.count) := rfl
  have call : Counter.catalog.get? 2 = some (.method Counter.add .both) := rfl
  refine ⟨s, emitted, ?_, ?_, ?_, ?_⟩
  · rw [(dispatchSingle_evaluates emitted get rfl _ _ _).1]
    rfl
  · rw [(dispatchSingle_evaluates emitted set rfl _ _ _).1]
    rfl
  · rw [(dispatchSingle_evaluates emitted set rfl _ _ _).1]
    rfl
  · rw [(dispatchSingle_evaluates emitted call rfl _ _ _).1]
    rfl

end RoutineSet

end BeanDispatch
