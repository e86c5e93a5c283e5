import BeanDispatch.Proofs.Interception
import BeanDispatch.Proofs.SingleDispatch

/-! The ways to call a method. A method behind an index can be called through the method found for
it, by dispatch with an argument list, and by dispatch with one argument. Each of them comes down to
the same direct call of the method itself, so they agree wherever what is declared agrees with what
the catalog says, and with interception off an intercepted method is no exception. -/

namespace BeanDispatch

open Emission

/-! ### The search -/

/-- A method that is found is the one searched for: only its result and whether it is called
through an interface are news. -/
theorem ClassTable.requiredMethod_ok {t : ClassTable} {owner name : String}
    {params : ParameterList} {handle : LocatedMethod}
    (found : t.requiredMethod owner name params = .ok handle) :
    handle.declaring = owner ∧ handle.signature.name = name ∧
      handle.signature.params = params.types := by
  obtain ⟨d, _, search⟩ := Checked.bind_eq_ok.1 found
  split at search
  · rename_i method first
    cases search
    obtain ⟨supertype, _, declared⟩ := List.exists_of_findSome?_eq_some first
    have named := List.find?_some declared
    rw [Bool.and_eq_true, decide_eq_true_iff, decide_eq_true_iff] at named
    exact ⟨rfl, named⟩
  · cases search

theorem Machine.RunsTo.resolve {t : ClassTable} {index : UInt32} {call : Call}
    {code : Array Instruction} {address : Nat} {stack : Stack} {owner name : String}
    {params : ParameterList} (here : code[address]? = some (.resolve owner name params)) :
    RunsTo t index call code address stack
      (Completion.method <$> Action.ofExcept (t.requiredMethod owner name params)) :=
  .done here rfl

namespace RoutineSet

variable {c : Catalog} {options : EmitOptions} {s : RoutineSet} {index : UInt32} {entry : Target}
  {m : MethodTarget}

theorem locate_eq {code : Array Instruction} (runs : s.codeFor? .targetMethod index = some code)
    {t : ClassTable} {outcome : Action Fault LocatedMethod}
    (ends : Machine.RunsTo t index ⟨.null, .multi [], false⟩ code 0 []
      (Completion.method <$> outcome)) :
    s.locate t index = outcome := by
  rw [locate, execute_eq_of_runsTo runs ends]
  exact Action.map_bind_ofExcept fun _ => rfl

/-- The search emitted for a method is a search of the class table. -/
theorem locate_offer (emitted : c.emit options = .ok s) (locator : options.locator = true)
    (offered : (index, m) ∈ c.select Target.located?) (t : ClassTable) :
    s.locate t index = Action.ofExcept (t.requiredMethod m.declaring m.signature.name
      (.ofTypes m.signature.params)) := by
  obtain ⟨d, code, drawn, assembled, runs⟩ :=
    routineOf_code ((Catalog.emit_routines emitted).2.2 locator) offered
  cases drawn
  obtain ⟨rfl, _⟩ := assemble_instructions assembled
  exact locate_eq runs (.resolve (Machine.holds_cons.1 (Machine.holds_toArray _)).1)

theorem locate_method (emitted : c.emit options = .ok s) (locator : options.locator = true)
    (present : c.get? index = some entry) (isMethod : entry.located? = some m) (t : ClassTable) :
    s.locate t index = Action.ofExcept (t.requiredMethod m.declaring m.signature.name
      (.ofTypes m.signature.params)) :=
  locate_offer emitted locator (Catalog.mem_select present isMethod) t

end RoutineSet

/-! ### The calls -/

theorem Target.supportsMulti_method (m : MethodTarget) (style : DispatchStyle) :
    (Target.method m style).supportsMulti = style.multiple := by
  cases style <;> rfl

theorem Target.supportsSingle_method (m : MethodTarget) (style : DispatchStyle) :
    (Target.method m style).supportsSingle = style.single := by
  cases style <;> rfl

namespace MethodTarget

variable {m : MethodTarget} {t : ClassTable}

/-- A handle that agrees with a method in every respect calls it directly. -/
theorem invoke_eq_evaluate {handle : LocatedMethod} (declaring : handle.declaring = m.declaring)
    (signature : handle.signature = m.signature) (via : handle.viaInterface = m.viaInterface)
    {args : List Value} (count : args.length = m.signature.arity) (target : Value) :
    handle.invoke t target args = m.evaluate t target args := by
  have casts : t.castArguments args 0 m.signature.params = t.castAll args m.signature.params :=
    ClassTable.castArguments_eq_castAll (by rw [Nat.zero_add, count]; exact Nat.le_refl _)
  rw [LocatedMethod.invoke, evaluate, declaring, signature, via, casts,
    if_neg (not_not_intro count)]
  cases cast : t.cast target (.named m.declaring) with
  | error fault => rfl
  | ok receiver =>
    rw [ClassTable.cast_named cast]
    rfl

/-- One argument or null is as good as a list of as many arguments as a method with at most one
parameter takes. -/
theorem evaluateWith_headD (few : m.signature.arity ≤ 1) {args : List Value}
    (count : args.length = m.signature.arity) (target : Value) :
    m.evaluateWith t target (args.headD .null) = m.evaluate t target args := by
  rw [evaluateWith_eq few]
  match args, count with
  | [], count =>
    rw [← evaluate_take target [_], ← count]
    rfl
  | [arg], _ => rfl
  | _ :: _ :: _, count =>
    rw [← count] at few
    simp at few

end MethodTarget

namespace RoutineSet

variable {c : Catalog} {options : EmitOptions} {s : RoutineSet} {index : UInt32} {entry : Target}
  {m : MethodTarget}

theorem dispatchMany_located (emitted : c.emit options = .ok s)
    (present : c.get? index = some entry) (isMethod : entry.located? = some m)
    (supports : entry.supportsMulti = true) (t : ClassTable) (target : Value) (args : List Value) :
    s.dispatchMany t index target args false = m.evaluate t target args := by
  cases entry with
  | method n style =>
    cases isMethod
    rw [Target.supportsMulti_method] at supports
    exact (dispatchMany_method emitted present supports).2 t target args false
  | intercepted x =>
    cases isMethod
    exact dispatchMany_intercepted emitted present t target args false
  | fieldGet f => cases isMethod
  | fieldSet f => cases isMethod

theorem dispatchSingle_located (emitted : c.emit options = .ok s)
    (present : c.get? index = some entry) (isMethod : entry.located? = some m)
    (supports : entry.supportsSingle = true) (t : ClassTable) (target : Value) {args : List Value}
    (count : args.length = m.signature.arity) :
    s.dispatchSingle t index target (args.headD .null) = m.evaluate t target args := by
  cases entry with
  | method n style =>
    cases isMethod
    rw [Target.supportsSingle_method] at supports
    obtain ⟨few, evaluates⟩ := dispatchSingle_access emitted present (if_pos supports)
    rw [evaluates]
    exact MethodTarget.evaluateWith_headD (few m rfl) count target
  | intercepted x => cases supports
  | fieldGet f => cases isMethod
  | fieldSet f => cases isMethod

/-- All ways to call a method agree. The search gives a method of the name, the parameters and the
declaring class that the catalog says, also for an intercepted one. If its result type and its kind
of owner are the catalog's too, calling it does the same as either dispatch. -/
theorem callPaths_agree (emitted : c.emit options = .ok s) (locator : options.locator = true)
    (present : c.get? index = some entry) (isMethod : entry.located? = some m) (t : ClassTable) :
    s.locate t index = Action.ofExcept (t.requiredMethod m.declaring m.signature.name
        (.ofTypes m.signature.params)) ∧
      ∀ handle h after, s.locate t index h = (.ok handle, after) →
        (handle.declaring = m.declaring ∧ handle.signature.name = m.signature.name ∧
          handle.signature.params = m.signature.params) ∧
        (handle.signature.result = m.signature.result → handle.viaInterface = m.viaInterface →
          ∀ target args, args.length = m.signature.arity →
            (entry.supportsMulti = true →
              s.dispatchMany t index target args false = handle.invoke t target args) ∧
            (entry.supportsSingle = true →
              s.dispatchSingle t index target (args.headD .null) =
                handle.invoke t target args)) := by
  have search := locate_method emitted locator present isMethod t
  refine ⟨search, fun handle h after located => ?_⟩
  rw [search] at located
  have found := Action.yields_ofExcept.1 ⟨h, after, located⟩
  obtain ⟨declaring, name, params⟩ := ClassTable.requiredMethod_ok found
  rw [ParameterList.types_ofTypes] at params
  refine ⟨⟨declaring, name, params⟩, fun result via target args count => ?_⟩
  have signature : handle.signature = m.signature := by
    show handle.signature = ⟨m.signature.name, m.signature.params, m.signature.result⟩
    rw [← name, ← params, ← result]
  rw [MethodTarget.invoke_eq_evaluate declaring signature via count]
  exact ⟨fun supports => dispatchMany_located emitted present isMethod supports t target args,
    fun supports => dispatchSingle_located emitted present isMethod supports t target count⟩

/-- The method found for an audited counter is the method itself, and so is what runs. -/
theorem callPaths_agree_audited : ∃ s handle, Counter.catalog.emit {} = .ok s ∧
    s.locate Counter.classes 3 Counter.heap = (.ok handle, Counter.heap) ∧
    handle.signature.name = "add" ∧
    s.dispatchMany Counter.classes 3 Counter.auditedCounter [.int 3] false =
      handle.invoke Counter.classes Counter.auditedCounter [.int 3] := by
  obtain ⟨s, emitted⟩ : ∃ s, Counter.catalog.emit {} = .ok s := ⟨_, rfl⟩
  have present : Counter.catalog.get? 3 = some (.intercepted Counter.audited) := rfl
  obtain ⟨search, paths⟩ := callPaths_agree emitted rfl present rfl Counter.classes
  have located : s.locate Counter.classes 3 Counter.heap =
      (.ok ⟨"Counter", Counter.add.signature, false⟩, Counter.heap) := by
    rw [search]
    rfl
  obtain ⟨⟨_, name, _⟩, agree⟩ := paths _ _ _ located
  exact ⟨s, _, emitted, located, name, (agree rfl rfl _ _ rfl).1 rfl⟩

end RoutineSet

end BeanDispatch
