import BeanDispatch.Proofs.BeanCopy
import BeanDispatch.Proofs.RecordedIndices

/-! Constructors that were declared. A builder keeps the arguments of a constructor, the body that
takes them and the body without arguments apart from each other, and each declaration of a
constructor overwrites some of the three. `Installs` is what every declaration preserves: the
arguments are those of the last declaration that came with arguments, empty ones included, and
unless they are empty the body is from the same declaration. So values are always checked against
the arguments that were declared together with the body that receives them. -/

namespace BeanDispatch

/-! ### Declared constructors -/

namespace Declaration

/-- The arguments of a declared constructor and its body, if the declaration is one. -/
def constructor? (beanType : String) : Declaration → Option (List Descriptor × Constructor)
  | .constructor arguments => some (arguments, fieldConstructor beanType arguments)
  | .constructorWith arguments body => some (arguments, body)
  | _ => none

/-- The body that takes no arguments, if the declaration is one of it. -/
def defaultConstructor? (beanType : String) : Declaration → Option Constructor
  | .defaultConstructor => some (fieldConstructor beanType [])
  | .constructor [] => some (fieldConstructor beanType [])
  | .constructorWith [] body => some body
  | _ => none

/-- The last constructor that was declared with its arguments. -/
def lastConstructor? (beanType : String) (ds : List Declaration) :
    Option (List Descriptor × Constructor) :=
  (ds.filterMap (constructor? beanType)).getLast?

def lastDefault? (beanType : String) (ds : List Declaration) : Option Constructor :=
  (ds.filterMap (defaultConstructor? beanType)).getLast?

theorem lastConstructor?_concat (beanType : String) (ds : List Declaration) (d : Declaration) :
    lastConstructor? beanType (ds ++ [d]) =
      (d.constructor? beanType).or (lastConstructor? beanType ds) :=
  getLast?_filterMap_concat _ ds d

theorem lastDefault?_concat (beanType : String) (ds : List Declaration) (d : Declaration) :
    lastDefault? beanType (ds ++ [d]) =
      (d.defaultConstructor? beanType).or (lastDefault? beanType ds) :=
  getLast?_filterMap_concat _ ds d

end Declaration

/-! ### Builders -/

namespace Builder

variable {b : Builder} {ds : List Declaration}

/-- The arguments and the bodies of constructors are those that the declarations leave. -/
structure Installs (b : Builder) (ds : List Declaration) : Prop where
  arguments : b.constructorArguments =
    (Declaration.lastConstructor? b.beanType ds).elim [] Prod.fst
  body : ∀ arguments body, Declaration.lastConstructor? b.beanType ds = some (arguments, body) →
    arguments ≠ [] → b.constructor = some body
  default : b.defaultConstructor = Declaration.lastDefault? b.beanType ds

theorem installs_start (beanType : String) : (Builder.start beanType).Installs [] :=
  ⟨rfl, nofun, rfl⟩

/-- A constructor is installed with its arguments, as the default one if it has none. -/
theorem Installs.install (installs : b.Installs ds) {d : Declaration}
    {arguments : List Descriptor} {body : Constructor}
    (declares : d.constructor? b.beanType = some (arguments, body))
    (without : d.defaultConstructor? b.beanType = if arguments.isEmpty then some body else none) :
    (b.installConstructor arguments body).Installs (ds ++ [d]) := by
  have last : Declaration.lastConstructor? b.beanType (ds ++ [d]) = some (arguments, body) := by
    rw [Declaration.lastConstructor?_concat, declares, Option.some_or]
  have lastDefault : Declaration.lastDefault? b.beanType (ds ++ [d]) =
      (if arguments.isEmpty then some body else none).or b.defaultConstructor := by
    rw [Declaration.lastDefault?_concat, without, installs.default]
  have isLast : ∀ found other,
      Declaration.lastConstructor? b.beanType (ds ++ [d]) = some (found, other) →
        found = arguments ∧ other = body := by
    intro found other isFound
    rw [last] at isFound
    cases isFound
    exact ⟨rfl, rfl⟩
  cases arguments with
  | nil =>
    refine ⟨(congrArg (Option.elim · [] Prod.fst) last).symm, fun found other isFound some => ?_,
      lastDefault.symm⟩
    exact absurd (isLast found other isFound).1 some
  | cons argument rest =>
    refine ⟨(congrArg (Option.elim · [] Prod.fst) last).symm, fun found other isFound _ => ?_,
      lastDefault.symm⟩
    rw [(isLast found other isFound).2]
    rfl

theorem Installs.setAside (installs : b.Installs ds) {d : Declaration} {after : Builder}
    (declares : d.constructor? b.beanType = none)
    (without : d.defaultConstructor? b.beanType = none) (sameType : after.beanType = b.beanType)
    (sameArguments : after.constructorArguments = b.constructorArguments)
    (sameBody : after.constructor = b.constructor)
    (sameDefault : after.defaultConstructor = b.defaultConstructor) :
    after.Installs (ds ++ [d]) := by
  have last : Declaration.lastConstructor? after.beanType (ds ++ [d]) =
      Declaration.lastConstructor? b.beanType ds := by
    rw [sameType, Declaration.lastConstructor?_concat, declares, Option.none_or]
  have lastDefault : Declaration.lastDefault? after.beanType (ds ++ [d]) =
      Declaration.lastDefault? b.beanType ds := by
    rw [sameType, Declaration.lastDefault?_concat, without, Option.none_or]
  refine ⟨?_, ?_, ?_⟩
  · rw [sameArguments, last, installs.arguments]
  · rw [sameBody, last]
    exact installs.body
  · rw [sameDefault, lastDefault, installs.default]

theorem Installs.defaultConstructor (installs : b.Installs ds) :
    (b.declare .defaultConstructor).Installs (ds ++ [.defaultConstructor]) := by
  have last : Declaration.lastConstructor? b.beanType (ds ++ [.defaultConstructor]) =
      Declaration.lastConstructor? b.beanType ds :=
    Declaration.lastConstructor?_concat b.beanType ds .defaultConstructor
  refine ⟨?_, ?_, ?_⟩
  · show b.constructorArguments =
      (Declaration.lastConstructor? b.beanType (ds ++ [.defaultConstructor])).elim [] Prod.fst
    rw [last, installs.arguments]
  · show ∀ arguments body,
      Declaration.lastConstructor? b.beanType (ds ++ [.defaultConstructor]) = _ → _
    rw [last]
    exact installs.body
  · exact (Declaration.lastDefault?_concat b.beanType ds .defaultConstructor).symm

theorem Installs.declare (installs : b.Installs ds) (d : Declaration) :
    (b.declare d).Installs (ds ++ [d]) := by
  cases d with
  | property d accessors =>
    obtain ⟨getter, setter, wither⟩ := accessors
    cases getter <;> cases setter <;> cases wither <;>
      exact installs.setAside rfl rfl rfl rfl rfl rfl
  | constructor arguments =>
    refine installs.install rfl ?_
    cases arguments <;> rfl
  | constructorWith arguments body =>
    refine installs.install rfl ?_
    cases arguments <;> rfl
  | defaultConstructor => exact installs.defaultConstructor
  | field | readOnlyField | method | constructorAnnotations | emitOptions =>
    exact installs.setAside rfl rfl rfl rfl rfl rfl

/-- What any number of declarations preserve. -/
theorem Installs.declareAll {past : List Declaration} (installs : b.Installs past)
    (ds : List Declaration) : (b.declareAll ds).Installs (past ++ ds) := by
  induction ds generalizing b past with
  | nil =>
    rw [List.append_nil]
    exact installs
  | cons d ds ih =>
    have next := ih (installs.declare d)
    rw [List.append_assoc] at next
    exact next

end Builder

/-! ### Instantiation -/

namespace Introspection

variable {γ : Type} [GeneratedType γ] {i : Introspection γ} {options : InstantiateOptions}
  {args : List Value} {problem : Uninstantiable}

/-- Why a constructor is not given some values, if there is a reason: their number comes first, then
the first one that its argument does not admit. -/
def refusal? (i : Introspection γ) (options : InstantiateOptions) (args : List Value) :
    Option Uninstantiable :=
  if args.length ≠ i.constructorArguments.length then
    some (.argumentCount args.length i.constructorArguments.length)
  else i.firstProblem? options i.constructorArguments args

theorem instantiateWith_refused (given : args ≠ [])
    (refused : i.refusal? options args = some problem) :
    i.instantiateWith options args = throw (.instantiation problem) := by
  rw [refusal?] at refused
  rw [instantiateWith, if_neg (mt List.isEmpty_iff.1 given)]
  split at refused
  · rename_i miscounted
    cases refused
    rw [if_pos miscounted]
  · rename_i counted
    rw [if_neg counted, refused]

theorem instantiateWith_accepted (given : args ≠ []) (accepted : i.refusal? options args = none) :
    i.instantiateWith options args = GeneratedType.construct i.generated args := by
  rw [refusal?] at accepted
  rw [instantiateWith, if_neg (mt List.isEmpty_iff.1 given)]
  split at accepted
  · cases accepted
  · rename_i counted
    rw [if_neg counted, accepted]

theorem length_of_accepted (accepted : i.refusal? options args = none) :
    args.length = i.constructorArguments.length := by
  rw [refusal?] at accepted
  split at accepted
  · cases accepted
  · rename_i counted
    exact not_not.1 counted

theorem cases_of_firstProblem? {arguments : List Descriptor}
    (found : i.firstProblem? options arguments args = some problem) :
    (∃ name, problem = .nullArgument name) ∨
      ∃ value argument, problem = .invalidArgument value argument := by
  induction arguments generalizing args with
  | nil => cases found
  | cons argument arguments ih =>
    cases args with
    | nil => cases found
    | cons value values =>
      rw [firstProblem?, Option.or_eq_some_iff] at found
      rcases found with here | ⟨_, later⟩
      · rw [argumentProblem?] at here
        split at here <;> split at here <;> cases here
        · exact .inl ⟨_, rfl⟩
        · exact .inr ⟨_, _, rfl⟩
      · exact ih later

theorem cases_of_refusal? (refused : i.refusal? options args = some problem) :
    problem = .argumentCount args.length i.constructorArguments.length ∨
      (∃ name, problem = .nullArgument name) ∨
      ∃ value argument, problem = .invalidArgument value argument := by
  rw [refusal?] at refused
  split at refused
  · cases refused
    exact .inl rfl
  · exact .inr (cases_of_firstProblem? refused)

end Introspection

theorem Action.widen_dispatch_ne_instantiation {α : Type} (x : Action Fault α) (h : Heap)
    (problem : Uninstantiable) :
    (Action.widen Failure.dispatch x h).1 ≠ .error (.instantiation problem) := by
  intro fails
  change (x h).1.mapError Failure.dispatch = _ at fails
  cases ran : (x h).1 <;> rw [ran] at fails <;> cases fails

namespace Builder

variable {b : Builder} {t : ClassTable} {i : Introspection CompiledType} {beanType : String}
  {ds : List Declaration} {options : InstantiateOptions} {args : List Value}

theorem constructorArguments_of_build (built : b.build t = .ok i) :
    i.constructorArguments = b.constructorArguments := by
  obtain ⟨_, _, _, rfl⟩ := build_ok built
  rfl

theorem instantiateWith_nil (built : b.build t = .ok i) (options : InstantiateOptions) :
    i.instantiateWith options [] =
      b.defaultConstructor.elim (throw (.instantiation .noDefaultConstructor)) fun body =>
        Action.widen .dispatch (body t []) := by
  obtain ⟨_, routines, _, rfl⟩ := build_ok built
  show CompiledType.runConstructor _ b.defaultConstructor _ [] = _
  cases b.defaultConstructor <;> rfl

/-- Values that are not refused are passed to the constructor. -/
theorem instantiateWith_of_constructor (built : b.build t = .ok i) {body : Constructor}
    (has : b.constructor = some body) (given : args ≠ [])
    (accepted : i.refusal? options args = none) :
    i.instantiateWith options args = Action.widen .dispatch (body t args) := by
  rw [Introspection.instantiateWith_accepted given accepted]
  obtain ⟨_, routines, _, rfl⟩ := build_ok built
  exact CompiledType.construct_eq has args

theorem installs_of_build (built : ((Builder.start beanType).declareAll ds).build t = .ok i) :
    ∃ b : Builder, b.build t = .ok i ∧ b.Installs ds ∧ b.beanType = beanType :=
  ⟨_, built, (installs_start beanType).declareAll ds, beanType_declareAll _ ds⟩

/-- The body that receives some values was declared last among the constructors, together with the
arguments that admit the values. -/
theorem Installs.exists_body (installs : b.Installs ds) (built : b.build t = .ok i)
    (given : args ≠ []) (accepted : i.refusal? options args = none) :
    ∃ body, Declaration.lastConstructor? b.beanType ds = some (i.constructorArguments, body) ∧
      i.instantiateWith options args = Action.widen .dispatch (body t args) := by
  have counted := Introspection.length_of_accepted accepted
  have some : i.constructorArguments ≠ [] := by
    intro none
    rw [none] at counted
    exact given (List.eq_nil_of_length_eq_zero counted)
  have arguments := (constructorArguments_of_build built).trans installs.arguments
  cases last : Declaration.lastConstructor? b.beanType ds with
  | none =>
    rw [last] at arguments
    exact absurd arguments some
  | some pair =>
    obtain ⟨found, body⟩ := pair
    rw [last] at arguments
    obtain rfl : i.constructorArguments = found := arguments
    exact ⟨body, rfl,
      instantiateWith_of_constructor built (installs.body _ body last some) given accepted⟩

/-- Whatever constructors are declared and in which order, values are checked against the arguments
of the last one that was declared with its arguments, and if they are not refused it is its body
that receives them, and as many of them. Without values the last body that takes none runs, or there
is no default constructor. So a constructor is never missing where arguments were admitted. -/
theorem instantiateWith_pairs
    (built : ((Builder.start beanType).declareAll ds).build t = .ok i)
    (options : InstantiateOptions) :
    (∀ args, args ≠ [] → ∀ problem, i.refusal? options args = some problem →
      i.instantiateWith options args = throw (.instantiation problem)) ∧
    (∀ args, args ≠ [] → i.refusal? options args = none → ∃ body,
      Declaration.lastConstructor? beanType ds = some (i.constructorArguments, body) ∧
      args.length = i.constructorArguments.length ∧
      i.instantiateWith options args = Action.widen .dispatch (body t args)) ∧
    (∀ body, Declaration.lastDefault? beanType ds = some body →
      i.instantiateWith options [] = Action.widen .dispatch (body t [])) ∧
    (Declaration.lastDefault? beanType ds = none →
      i.instantiateWith options [] = throw (.instantiation .noDefaultConstructor)) ∧
    ∀ args h type,
      (i.instantiateWith options args h).1 ≠ .error (.instantiation (.noConstructor type)) := by
  obtain ⟨b, builds, installs, rfl⟩ := installs_of_build built
  have default := instantiateWith_nil builds options
  rw [installs.default] at default
  refine ⟨fun args given problem => Introspection.instantiateWith_refused given,
    fun args given accepted => ?_, fun body last => ?_, fun none => ?_, fun args h type => ?_⟩
  · obtain ⟨body, last, runs⟩ := installs.exists_body builds given accepted
    exact ⟨body, last, Introspection.length_of_accepted accepted, runs⟩
  · rw [default, last]
    rfl
  · rw [default, none]
    rfl
  · by_cases given : args = []
    · rw [given, default]
      cases Declaration.lastDefault? b.beanType ds with
      | none => exact nofun
      | some body => exact Action.widen_dispatch_ne_instantiation _ h _
    · cases accepted : i.refusal? options args with
      | some problem =>
        rw [Introspection.instantiateWith_refused given accepted]
        rcases Introspection.cases_of_refusal? accepted with rfl | ⟨_, rfl⟩ | ⟨_, _, rfl⟩ <;>
          exact nofun
      | none =>
        obtain ⟨body, _, runs⟩ := installs.exists_body builds given accepted
        rw [runs]
        exact Action.widen_dispatch_ne_instantiation _ h _

end Builder

namespace Account

/-- A constructor that is declared again with a further argument, and two default constructors. -/
def revisions : List Declaration :=
  [.constructorWith [] fun _ _ => throw (.native "no owner"), .constructor [owner],
    .defaultConstructor, .constructor [owner, balance]]

def revisedBuilder : Builder := (Builder.start "Account").declareAll revisions

def revised : Introspection CompiledType :=
  revisedBuilder.finish classes
    ((revisedBuilder.catalog.emit {}).toOption.getD ⟨"", false, none, none, none⟩)

/-- An owner and a balance go to the constructor that was declared last, and without them the second
default constructor runs. -/
theorem instantiateWith_pairs_revised :
    revised.instantiateWith {} [.str "Ada", .int 7] = Action.widen .dispatch
        (fieldConstructor "Account" [owner, balance] classes [.str "Ada", .int 7]) ∧
      revised.instantiateWith {} [] =
        Action.widen .dispatch (fieldConstructor "Account" [] classes []) := by
  have built : ((Builder.start "Account").declareAll revisions).build classes = .ok revised := rfl
  obtain ⟨_, receives, runs, _⟩ := Builder.instantiateWith_pairs built {}
  obtain ⟨body, last, _, passes⟩ := receives [.str "Ada", .int 7] (List.cons_ne_nil _ _) rfl
  cases last
  exact ⟨passes, runs _ rfl⟩

end Account

end BeanDispatch
