import BeanDispatch.Proofs.DispatchedCalls
import BeanDispatch.Proofs.HandleDispatch

/-! Numbers of arguments. A method handle is given any number of arguments, and nothing compares it
with the number that the method declares: a method with an argument list fails at the first
parameter that has none, and one with a single argument is told apart from more than one only. So
too few arguments are refused before a body runs, but surplus ones are dropped and a missing single
one is null, which a class takes. The method that a search finds compares the numbers first. -/

namespace BeanDispatch

open Emission

/-! ### Missing arguments -/

namespace ClassTable

variable {t : ClassTable}

/-- With fewer values than types there is a fault, be it that of an earlier cast. -/
theorem castArguments_of_short (args : List Value) (types : List TypeName) {position : Nat}
    (within : position ≤ args.length) (short : args.length < position + types.length) :
    ∃ fault, t.castArguments args position types = .error fault := by
  induction types generalizing position with
  | nil =>
    rw [List.length_nil] at short
    omega
  | cons type types ih =>
    rw [castArguments]
    cases present : args[position]? with
    | none => exact ⟨_, rfl⟩
    | some value =>
      have inside : position < args.length := (List.getElem?_eq_some_iff.1 present).1
      rw [List.length_cons] at short
      obtain ⟨fault, fails⟩ := @ih (position + 1) (by omega) (by omega)
      dsimp only
      rw [fails]
      cases t.cast value type with
      | error earlier => exact ⟨earlier, rfl⟩
      | ok slot => exact ⟨fault, rfl⟩

/-- Null is the content of a class and of nothing else. -/
theorem cast_null_of_not_named {type : TypeName} (notNamed : ∀ name, type ≠ .named name) :
    ∃ fault, t.cast .null type = .error fault := by
  cases type with
  | void => exact ⟨_, rfl⟩
  | primitive kind => cases kind <;> exact ⟨_, rfl⟩
  | named name => exact absurd rfl (notNamed name)

end ClassTable

namespace MethodTarget

variable {m : MethodTarget} (t : ClassTable) (target : Value)

theorem evaluate_of_short {args : List Value} (short : args.length < m.signature.arity) :
    ∃ fault, m.evaluate t target args = throw fault := by
  obtain ⟨fault, fails⟩ := t.castArguments_of_short args m.signature.params (Nat.zero_le _)
    (by rwa [Nat.zero_add])
  rw [evaluate, fails]
  cases t.cast target (.named m.declaring) with
  | error earlier => exact ⟨earlier, rfl⟩
  | ok receiver => exact ⟨fault, rfl⟩

theorem evaluateWith_of_no_params (none : m.signature.params = []) (arg other : Value) :
    m.evaluateWith t target arg = m.evaluateWith t target other := by
  rw [evaluateWith, evaluateWith, none, List.mapM_nil, List.mapM_nil]

theorem evaluateWith_null {type : TypeName} (one : m.signature.params = [type])
    (notNamed : ∀ name, type ≠ .named name) :
    ∃ fault, m.evaluateWith t target .null = throw fault := by
  obtain ⟨fault, fails⟩ := t.cast_null_of_not_named notNamed
  rw [evaluateWith, one, List.mapM_cons, fails]
  cases t.cast target (.named m.declaring) with
  | error earlier => exact ⟨earlier, rfl⟩
  | ok receiver => exact ⟨fault, rfl⟩

end MethodTarget

/-! ### Declared methods -/

namespace MethodDeclaration

variable {beanType thisType : String} {d : MethodDeclaration}

/-- A method that is not for one argument only is called with its declared parameters, also through
a bridge. -/
theorem exists_multi (multi : (d.bridge.isNone && d.style = .one) = false) :
    ∃ access, (d.target beanType thisType).multi? = some access ∧ ∀ t call,
      (access.callee t call).signature.params = d.arguments.map Descriptor.type := by
  obtain ⟨name, result, arguments, owner, viaInterface, style, annotations, bridge⟩ := d
  cases bridge with
  | some pair =>
    obtain ⟨proxy, bridge⟩ := pair
    exact ⟨_, rfl, fun t call => (InterceptedTarget.routed_signature _ t _ _).1⟩
  | none =>
    cases style with
    | one => cases multi
    | multi | both => exact ⟨_, rfl, fun _ _ => rfl⟩

theorem exists_single (single : (d.bridge.isNone && d.style = .one) = true) :
    ∃ callee, (d.target beanType thisType).single? = some (.call callee) ∧
      callee.signature.params = d.arguments.map Descriptor.type := by
  obtain ⟨name, result, arguments, owner, viaInterface, style, annotations, bridge⟩ := d
  cases bridge with
  | some pair => cases single
  | none =>
    cases style with
    | one => exact ⟨_, rfl, rfl⟩
    | multi | both => cases single

theorem exists_located (beanType thisType : String) (d : MethodDeclaration) :
    ∃ found, (d.target beanType thisType).located? = some found ∧
      found.signature.params = d.arguments.map Descriptor.type := by
  obtain ⟨name, result, arguments, owner, viaInterface, style, annotations, bridge⟩ := d
  cases bridge <;> exact ⟨_, rfl, rfl⟩

end MethodDeclaration

/-! ### Handles -/

/-- Both ways through an intercepted call are there for every list of arguments. -/
theorem MultiAccess.callee_arguments (access : MultiAccess) (t : ClassTable) (target : Value)
    (arguments others : Arguments) (interceptable : Bool) :
    access.callee t ⟨target, arguments, interceptable⟩ =
      access.callee t ⟨target, others, interceptable⟩ := by
  cases access <;> rfl

namespace Builder

variable {b : Builder} {ds : List Declaration} {t : ClassTable} {i : Introspection CompiledType}
  {m : BeanMethod}

theorem invoke_multi (recorded : b.Recorded ds []) (built : b.build t = .ok i)
    (member : m ∈ i.methods) (multi : m.singleValue = false) (on : Bool) (bean : Value) :
    ∃ callee : MethodTarget, callee.signature.params = m.arguments.map Descriptor.type ∧
      ∀ args, (i.setInterceptable on).invoke m bean args =
        Action.widen .dispatch (callee.evaluate t bean args) := by
  obtain ⟨_, routines, emitted, rfl⟩ := build_ok built
  obtain ⟨d, _, stands⟩ := exists_of_forall₂ recorded.methods member
  obtain ⟨access, offers, params⟩ := d.exists_multi (stands.single.symm.trans multi)
  refine ⟨access.callee t ⟨bean, .multi [], on⟩, ?_, fun args => ?_⟩
  · rw [params, stands.arguments]
  · rw [Introspection.invoke, multi, if_neg Bool.false_ne_true,
      access.callee_arguments t bean (.multi []) (.multi args) on]
    exact congrArg _ (RoutineSet.dispatchMany_offer emitted (stands.index.mem_select offers) t bean
      args on)

/-- A method with one argument takes at most one, and evaluates a call with the first argument, or
null if there is none. -/
theorem invoke_single (recorded : b.Recorded ds []) (built : b.build t = .ok i)
    (member : m ∈ i.methods) (single : m.singleValue = true) (on : Bool) (bean : Value) :
    m.arguments.length ≤ 1 ∧
    ∃ callee : MethodTarget, callee.signature.params = m.arguments.map Descriptor.type ∧
      ∀ args, (i.setInterceptable on).invoke m bean args =
        if 1 < args.length then throw (.unsupported (.singleArgument m.name args.length))
        else Action.widen .dispatch (callee.evaluateWith t bean (args.headD .null)) := by
  obtain ⟨_, routines, emitted, rfl⟩ := build_ok built
  obtain ⟨d, _, stands⟩ := exists_of_forall₂ recorded.methods member
  obtain ⟨callee, offers, params⟩ := d.exists_single (stands.single.symm.trans single)
  obtain ⟨few, evaluates⟩ :=
    RoutineSet.dispatchSingle_offer emitted (stands.index.mem_select offers)
  rw [← stands.arguments] at params
  refine ⟨?_, callee, params, fun args => ?_⟩
  · have atMost := few callee rfl
    rwa [Signature.arity, params, List.length_map] at atMost
  · rw [Introspection.invoke, if_pos single]
    split
    · rfl
    · exact congrArg _ (evaluates t bean _)

theorem reflect_params (recorded : b.Recorded ds []) (built : b.build t = .ok i)
    (member : m ∈ i.methods) (on : Bool) {handle : LocatedMethod} {h after : Heap}
    (found : (i.setInterceptable on).reflect m h = (.ok handle, after)) :
    handle.signature.params = m.arguments.map Descriptor.type := by
  cases locator : b.options.locator with
  | true =>
    obtain ⟨_, routines, emitted, rfl⟩ := build_ok built
    obtain ⟨d, _, stands⟩ := exists_of_forall₂ recorded.methods member
    obtain ⟨target, offers, params⟩ := d.exists_located b.beanType b.catalog.thisType
    have located : routines.locate t m.index h = (.ok handle, after) :=
      Action.widen_eq_ok_iff.1 found
    rw [RoutineSet.locate_offer emitted locator (stands.index.mem_select offers)] at located
    have searched := Action.yields_ofExcept.1 ⟨h, after, located⟩
    rw [(ClassTable.requiredMethod_ok searched).2.2, ParameterList.types_ofTypes, params,
      stands.arguments]
  | false =>
    have absent : i.generated.routines.case? .targetMethod m.index = none := by
      rw [← Option.not_isSome_iff_eq_none, isSome_search_iff recorded built member, locator]
      exact Bool.false_ne_true
    have located : i.generated.routines.locate i.generated.classes m.index h =
        (.ok handle, after) := Action.widen_eq_ok_iff.1 found
    rw [RoutineSet.locate, RoutineSet.execute_of_no_case absent] at located
    cases located

/-- With an argument list, too few arguments are refused and surplus ones dropped. -/
theorem invoke_multi_of_wrong_count (recorded : b.Recorded ds []) (built : b.build t = .ok i)
    (member : m ∈ i.methods) (multi : m.singleValue = false) (on : Bool) (bean : Value)
    (args : List Value) :
    (args.length < m.arguments.length →
      ∃ fault, (i.setInterceptable on).invoke m bean args = throw (.dispatch fault)) ∧
    (m.arguments.length < args.length → (i.setInterceptable on).invoke m bean args =
      (i.setInterceptable on).invoke m bean (args.take m.arguments.length)) := by
  obtain ⟨callee, params, evaluates⟩ := invoke_multi recorded built member multi on bean
  have arity : callee.signature.arity = m.arguments.length := by
    rw [Signature.arity, params, List.length_map]
  constructor
  · intro short
    obtain ⟨fault, fails⟩ := MethodTarget.evaluate_of_short t bean (arity ▸ short)
    exact ⟨fault, by rw [evaluates, fails]; rfl⟩
  · intro _
    rw [evaluates, evaluates, ← arity, MethodTarget.evaluate_take]

/-- For one argument, several are refused, one is dropped where none is declared, and where one is
declared none is as good as null. -/
theorem invoke_single_of_wrong_count (recorded : b.Recorded ds []) (built : b.build t = .ok i)
    (member : m ∈ i.methods) (single : m.singleValue = true) (on : Bool) (bean : Value)
    {args : List Value} (wrong : args.length ≠ m.arguments.length) :
    m.arguments.length ≤ 1 ∧
    (1 < args.length → (i.setInterceptable on).invoke m bean args =
      throw (.unsupported (.singleArgument m.name args.length))) ∧
    (∀ arg, args = [arg] → m.arguments = [] ∧
      (i.setInterceptable on).invoke m bean args = (i.setInterceptable on).invoke m bean []) ∧
    (args = [] → ∃ argument, m.arguments = [argument] ∧
      (i.setInterceptable on).invoke m bean args = (i.setInterceptable on).invoke m bean [.null] ∧
      ((∀ name, argument.type ≠ .named name) →
        ∃ fault, (i.setInterceptable on).invoke m bean args = throw (.dispatch fault))) := by
  obtain ⟨few, callee, params, evaluates⟩ := invoke_single recorded built member single on bean
  -- up to one argument, what counts is the first one
  have first : ∀ args : List Value, args.length ≤ 1 → (i.setInterceptable on).invoke m bean args =
      Action.widen .dispatch (callee.evaluateWith t bean (args.headD .null)) := fun args few => by
    rw [evaluates, if_neg (Nat.not_lt.2 few)]
  refine ⟨few, fun several => ?_, ?_, ?_⟩
  · rw [evaluates, if_pos several]
  · rintro arg rfl
    have none : m.arguments = [] := by
      rw [← List.length_eq_zero_iff]
      rw [List.length_singleton] at wrong
      omega
    rw [none, List.map_nil] at params
    refine ⟨none, ?_⟩
    rw [first [arg] (Nat.le_refl 1), first [] (Nat.zero_le 1),
      MethodTarget.evaluateWith_of_no_params t bean params _ Value.null]
    rfl
  · rintro rfl
    obtain ⟨argument, one⟩ : ∃ argument, m.arguments = [argument] := by
      rw [← List.length_eq_one_iff]
      rw [List.length_nil] at wrong
      omega
    rw [one, List.map_singleton] at params
    refine ⟨argument, one, ?_, fun notNamed => ?_⟩
    · exact (first [] (Nat.zero_le 1)).trans (first [.null] (Nat.le_refl 1)).symm
    · obtain ⟨fault, fails⟩ := MethodTarget.evaluateWith_null t bean params notNamed
      refine ⟨fault, (first [] (Nat.zero_le 1)).trans ?_⟩
      rw [List.headD_nil, fails]
      rfl

/-- The method found for a handle compares the numbers before anything else. -/
theorem reflected_of_wrong_count (recorded : b.Recorded ds []) (built : b.build t = .ok i)
    (member : m ∈ i.methods) (on : Bool) (bean : Value) {args : List Value}
    (wrong : args.length ≠ m.arguments.length) {handle : LocatedMethod} {h after : Heap}
    (found : (i.setInterceptable on).reflect m h = (.ok handle, after)) :
    handle.invoke t bean args = throw (.argumentCount
      (memberName handle.declaring handle.signature.name) m.arguments.length args.length) := by
  have arity : handle.signature.arity = m.arguments.length := by
    rw [Signature.arity, reflect_params recorded built member on found, List.length_map]
  rw [LocatedMethod.invoke, if_pos (arity ▸ wrong), arity]
  rfl

/-- A call of a method with another number of arguments than it declares. With an argument list, too
few are refused before a body runs, but surplus ones are dropped. A method for one argument refuses
several; one is dropped where none is declared, and where one is declared none is as good as null,
which is refused unless the type is a class. The method found by a search refuses them all. -/
theorem invoke_of_wrong_count {beanType : String}
    (declared : (Builder.start beanType).declareAll ds = b) (built : b.build t = .ok i)
    (member : m ∈ i.methods) (on : Bool) (bean : Value) {args : List Value}
    (wrong : args.length ≠ m.arguments.length) :
    (m.singleValue = false →
      (args.length < m.arguments.length →
        ∃ fault, (i.setInterceptable on).invoke m bean args = throw (.dispatch fault)) ∧
      (m.arguments.length < args.length → (i.setInterceptable on).invoke m bean args =
        (i.setInterceptable on).invoke m bean (args.take m.arguments.length))) ∧
    (m.singleValue = true →
      m.arguments.length ≤ 1 ∧
      (1 < args.length → (i.setInterceptable on).invoke m bean args =
        throw (.unsupported (.singleArgument m.name args.length))) ∧
      (∀ arg, args = [arg] → m.arguments = [] ∧
        (i.setInterceptable on).invoke m bean args = (i.setInterceptable on).invoke m bean []) ∧
      (args = [] → ∃ argument, m.arguments = [argument] ∧
        (i.setInterceptable on).invoke m bean args =
          (i.setInterceptable on).invoke m bean [.null] ∧
        ((∀ name, argument.type ≠ .named name) →
          ∃ fault, (i.setInterceptable on).invoke m bean args = throw (.dispatch fault)))) ∧
    ∀ handle h after, (i.setInterceptable on).reflect m h = (.ok handle, after) →
      handle.invoke t bean args = throw (.argumentCount
        (memberName handle.declaring handle.signature.name) m.arguments.length args.length) := by
  have recorded := recorded_of_declared declared
  refine ⟨fun multi => ?_, fun single => ?_, fun handle h after found => ?_⟩
  · exact invoke_multi_of_wrong_count recorded built member multi on bean args
  · exact invoke_single_of_wrong_count recorded built member single on bean wrong
  · exact reflected_of_wrong_count recorded built member on bean wrong found

end Builder

namespace Counter

def amount : Descriptor := .mk "amount" (.primitive .int) [] false OrderedMap.empty

def adding : Builder := (Builder.start "Counter").declareAll
  [.method { name := "add", result := .primitive .int, arguments := [amount] }]

def addingRoutines : RoutineSet :=
  (adding.catalog.emit {}).toOption.getD ⟨"", false, none, none, none⟩

def adder : Introspection CompiledType := adding.finish classes addingRoutines

def addMethod : BeanMethod :=
  ⟨"add", .ofType (.primitive .int), [amount], OrderedMap.empty, 0, false⟩

def addFound : LocatedMethod := ⟨"Counter", add.signature, false⟩

theorem build_adding : adding.build classes = .ok adder := rfl

theorem mem_methods_adder : addMethod ∈ adder.methods := List.mem_cons_self

theorem reflect_adder : adder.reflect addMethod heap = (.ok addFound, heap) := by
  have emitted : adding.catalog.emit {} = .ok addingRoutines := rfl
  have present : adding.catalog.get? 0 = some (.method add .multi) := rfl
  have located : addingRoutines.locate classes 0 heap = (.ok addFound, heap) := by
    rw [RoutineSet.locate_method emitted rfl present rfl]
    rfl
  exact Action.widen_eq_ok_iff.2 located

/-- Without an amount nothing is added, and the method found says so in its own words. -/
theorem invoke_of_wrong_count_counter : ([] : List Value).length ≠ addMethod.arguments.length ∧
    (∃ fault, adder.invoke addMethod counter [] = throw (.dispatch fault)) ∧
    addFound.invoke classes counter [] =
      throw (.argumentCount (memberName "Counter" "add") 1 0) := by
  have wrong : ([] : List Value).length ≠ addMethod.arguments.length := by decide
  obtain ⟨asList, _, found⟩ :=
    Builder.invoke_of_wrong_count rfl build_adding mem_methods_adder false counter wrong
  exact ⟨wrong, (asList rfl).1 (by decide), found _ _ _ reflect_adder⟩

/-- With two amounts the body runs with the first one, though the method found refuses them. -/
theorem surplus_argument_runs : adding.build classes = .ok adder ∧ addMethod ∈ adder.methods ∧
    [Value.int 3, .int 4].length ≠ addMethod.arguments.length ∧
    heap.field? ⟨0, "Counter"⟩ "count" = some (.int 5) ∧
    (adder.invoke addMethod counter [.int 3, .int 4] heap).1 = .ok (.int 3) ∧
    (adder.invoke addMethod counter [.int 3, .int 4] heap).2.field? ⟨0, "Counter"⟩ "count" =
      some (.int 3) ∧
    adder.reflect addMethod heap = (.ok addFound, heap) ∧
    addFound.invoke classes counter [.int 3, .int 4] =
      throw (.argumentCount (memberName "Counter" "add") 1 2) :=
  ⟨build_adding, mem_methods_adder, by decide, rfl, rfl, rfl, reflect_adder, rfl⟩

end Counter

end BeanDispatch
