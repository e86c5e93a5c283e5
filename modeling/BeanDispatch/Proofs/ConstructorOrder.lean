import BeanDispatch.Proofs.ConstructorHistory

/-! The order in which constructors are declared. A constructor that takes arguments and a default
constructor do not get into each other's way: declared in either order they leave the same builder.
A constructor that is declared with no arguments is the default constructor too, but it leaves the
builder without arguments. Declared after the other one, it keeps that from ever receiving values
and its arguments from making properties mutable; declared before it, it changes nothing. -/

namespace BeanDispatch

namespace Builder

variable {b : Builder} {t : ClassTable} {i j : Introspection CompiledType}
  {arguments : List Descriptor} {body default : Constructor} {options : InstantiateOptions}
  {args : List Value}

/-! ### Building -/

/-- The routines of what has been declared, if the class is known and they can be emitted. -/
def routines (b : Builder) (t : ClassTable) : Except Failure RoutineSet :=
  if t.contains b.beanType then (b.catalog.emit b.options).mapError .emission
  else .error (.dispatch (.unknownClass b.beanType))

/-- What is built depends on the constructors only in the end. -/
theorem build_eq (b : Builder) (t : ClassTable) : b.build t = (b.routines t).map (b.finish t) := by
  rw [build, routines]
  cases t.contains b.beanType with
  | false => rfl
  | true => cases b.catalog.emit b.options <;> rfl

def withConstructors (b : Builder) (arguments : List Descriptor) (body default : Constructor) :
    Builder :=
  { b with
    constructorArguments := arguments
    constructor := some body
    defaultConstructor := some default }

theorem declareAll_default_first (b : Builder) (some : arguments ≠ [])
    (body default : Constructor) :
    b.declareAll [.constructorWith [] default, .constructorWith arguments body] =
      b.withConstructors arguments body default := by
  cases arguments with
  | nil => exact absurd rfl some
  | cons argument rest => rfl

theorem declareAll_default_last (b : Builder) (some : arguments ≠ [])
    (body default : Constructor) :
    b.declareAll [.constructorWith arguments body, .constructorWith [] default] =
      b.withConstructors [] body default := by
  cases arguments with
  | nil => exact absurd rfl some
  | cons argument rest => rfl

/-- The default constructor as such may be declared before or after another one. -/
theorem declareAll_default_comm (b : Builder) (some : arguments ≠ []) (body : Constructor) :
    b.declareAll [.constructorWith arguments body, .defaultConstructor] =
      b.declareAll [.defaultConstructor, .constructorWith arguments body] := by
  cases arguments with
  | nil => exact absurd rfl some
  | cons argument rest => rfl

/-! ### Instances and properties -/

theorem instantiateWith_of_accepted
    (built : (b.withConstructors arguments body default).build t = .ok i) (given : args ≠ [])
    (accepted : i.refusal? options args = none) :
    i.instantiateWith options args = Action.widen .dispatch (body t args) :=
  instantiateWith_of_constructor built rfl given accepted

theorem instantiateWith_of_no_arguments (none : i.constructorArguments = []) (given : args ≠ []) :
    i.instantiateWith options args = throw (.instantiation (.argumentCount args.length 0)) := by
  refine Introspection.instantiateWith_refused given ?_
  rw [Introspection.refusal?, none]
  exact if_pos fun counted => given (List.eq_nil_of_length_eq_zero counted)

theorem instantiateWith_ne_of_arguments
    (built : (b.withConstructors arguments body default).build t = .ok i) (some : arguments ≠ [])
    (given : args ≠ []) (h : Heap) :
    (i.instantiateWith options args h).1 ≠
      .error (.instantiation (.argumentCount args.length 0)) := by
  have counts : i.constructorArguments.length ≠ 0 := by
    rw [constructorArguments_of_build built]
    exact mt List.eq_nil_of_length_eq_zero some
  cases accepted : i.refusal? options args with
  | none =>
    rw [instantiateWith_of_accepted built given accepted]
    exact Action.widen_dispatch_ne_instantiation _ h _
  | some problem =>
    rw [Introspection.instantiateWith_refused given accepted]
    rcases Introspection.cases_of_refusal? accepted with rfl | ⟨_, rfl⟩ | ⟨_, _, rfl⟩
    · intro same
      have counted := Uninstantiable.argumentCount.inj
        (Failure.instantiation.inj (Except.error.inj same))
      exact counts counted.2
    · exact nofun
    · exact nofun

/-- Both properties are recorded alike, and they are mutable alike unless a name among the arguments
makes the difference. -/
def SameButArguments (arguments : List Descriptor) (p q : Property) : Prop :=
  p.recorded = q.recorded ∧ p.readOnly = q.readOnly ∧
    (p.mutable = q.mutable ↔
      p.write.isSome = true ∨ ∀ argument ∈ arguments, argument.name ≠ p.name)

theorem sameButArguments (b : Builder) (arguments : List Descriptor) (body default : Constructor)
    (p : PendingProperty) :
    SameButArguments arguments ((b.withConstructors [] body default).finishProperty p)
      ((b.withConstructors arguments body default).finishProperty p) := by
  refine ⟨rfl, rfl, ?_⟩
  have unnamed : (arguments.any fun argument => argument.name = p.descriptor.name) = false ↔
      ∀ argument ∈ arguments, argument.name ≠ p.descriptor.name := by
    simp
  show (p.write.isSome || false) = (p.write.isSome || arguments.any _) ↔
    p.write.isSome = true ∨ ∀ argument ∈ arguments, argument.name ≠ p.descriptor.name
  rw [← unnamed]
  cases p.write.isSome <;> cases arguments.any _ <;> decide

/-- A constructor with arguments and a default constructor may be declared in either order if the
default constructor is declared as such. If it is declared as a constructor with no arguments, the
order makes no difference to whether an introspection is built, to instances without values, and to
all properties that can be written or are not named after an argument. But with the default
constructor last, values are always refused for their number, while with the constructor last they
are passed to its body unless its arguments refuse them; so no values come to the same. -/
theorem constructor_orders_differ (b : Builder) (t : ClassTable) (some : arguments ≠ [])
    (body default : Constructor) :
    let last := b.declareAll [.constructorWith arguments body, .constructorWith [] default]
    let first := b.declareAll [.constructorWith [] default, .constructorWith arguments body]
    b.declareAll [.constructorWith arguments body, .defaultConstructor] =
        b.declareAll [.defaultConstructor, .constructorWith arguments body] ∧
      (∀ failure, last.build t = .error failure ↔ first.build t = .error failure) ∧
      ∀ i j, last.build t = .ok i → first.build t = .ok j →
        List.Forall₂ (SameButArguments arguments) i.properties j.properties ∧
        ∀ options,
          i.instantiateWith options [] = Action.widen .dispatch (default t []) ∧
          j.instantiateWith options [] = Action.widen .dispatch (default t []) ∧
          ∀ args, args ≠ [] →
            i.instantiateWith options args =
              throw (.instantiation (.argumentCount args.length 0)) ∧
            (∀ problem, j.refusal? options args = .some problem →
              j.instantiateWith options args = throw (.instantiation problem)) ∧
            (j.refusal? options args = none →
              j.instantiateWith options args = Action.widen .dispatch (body t args)) ∧
            ∀ h, (i.instantiateWith options args h).1 ≠ (j.instantiateWith options args h).1 := by
  intro last first
  have isLast : last = b.withConstructors [] body default :=
    b.declareAll_default_last some body default
  have isFirst : first = b.withConstructors arguments body default :=
    b.declareAll_default_first some body default
  have sameRoutines : last.routines t = first.routines t := by
    rw [isLast, isFirst]
    rfl
  refine ⟨b.declareAll_default_comm some body, fun failure => ?_,
    fun i j builtLast builtFirst => ?_⟩
  · rw [build_eq, build_eq, sameRoutines]
    cases first.routines t with
    | error failure => rfl
    | ok routines => exact ⟨nofun, nofun⟩
  rw [isLast] at builtLast
  rw [isFirst] at builtFirst
  refine ⟨?_, fun options => ⟨instantiateWith_nil builtLast options,
    instantiateWith_nil builtFirst options, fun args given => ?_⟩⟩
  · obtain ⟨_, _, _, rfl⟩ := build_ok builtLast
    obtain ⟨_, _, _, rfl⟩ := build_ok builtFirst
    refine List.forall₂_map_left_iff.2 (List.forall₂_map_right_iff.2 ?_)
    exact List.forall₂_same.2 fun p _ => b.sameButArguments arguments body default p
  · have refuses : i.instantiateWith options args =
        throw (.instantiation (.argumentCount args.length 0)) :=
      instantiateWith_of_no_arguments (constructorArguments_of_build builtLast) given
    refine ⟨refuses, fun problem => Introspection.instantiateWith_refused given,
      instantiateWith_of_accepted builtFirst given, fun h same => ?_⟩
    rw [refuses] at same
    exact instantiateWith_ne_of_arguments builtFirst some given h same.symm

end Builder

namespace Account

/-- The body of a constructor for the owner, and one for no arguments. -/
def forOwner : Constructor := fieldConstructor "Account" [owner]

def forNobody : Constructor := fieldConstructor "Account" []

/-- The owner of an account stays, and no constructor is declared yet. -/
def owned : Builder := (Builder.start "Account").declare (.readOnlyField owner)

def ownedRoutines : RoutineSet :=
  (owned.catalog.emit {}).toOption.getD ⟨"", false, none, none, none⟩

def defaultLast : Introspection CompiledType :=
  (owned.withConstructors [] forOwner forNobody).finish classes ownedRoutines

def defaultFirst : Introspection CompiledType :=
  (owned.withConstructors [owner] forOwner forNobody).finish classes ownedRoutines

/-- Accounts without an owner are the same in either order, and an account for Ada is made only with
the default constructor first. -/
theorem constructor_orders_differ_owned :
    defaultLast.instantiateWith {} [] = defaultFirst.instantiateWith {} [] ∧
      defaultLast.instantiateWith {} [.str "Ada"] =
        throw (.instantiation (.argumentCount 1 0)) ∧
      defaultFirst.instantiateWith {} [.str "Ada"] =
        Action.widen .dispatch (forOwner classes [.str "Ada"]) := by
  obtain ⟨_, _, orders⟩ := owned.constructor_orders_differ classes (List.cons_ne_nil owner [])
    forOwner forNobody
  obtain ⟨_, instances⟩ := orders defaultLast defaultFirst rfl rfl
  obtain ⟨without, alsoWithout, withValues⟩ := instances {}
  obtain ⟨refuses, _, passes, _⟩ := withValues [.str "Ada"] (List.cons_ne_nil _ _)
  exact ⟨without.trans alsoWithout.symm, refuses, passes rfl⟩

/-- Declaring a constructor with no arguments after one for an owner displaces it: an account for
Ada cannot be made any more, and the owner is not mutable. -/
theorem parameterless_displaces_constructor :
    (owned.declareAll [.constructorWith [] forNobody, .constructorWith [owner] forOwner]).build
        classes = .ok defaultFirst ∧
      (owned.declareAll [.constructorWith [owner] forOwner, .constructorWith [] forNobody]).build
        classes = .ok defaultLast ∧
      (defaultFirst.instantiateWith {} [.str "Ada"] .empty).1 = .ok (.object ⟨0, "Account"⟩) ∧
      (defaultLast.instantiateWith {} [.str "Ada"] .empty).1 =
        .error (.instantiation (.argumentCount 1 0)) ∧
      defaultFirst.properties.map Property.mutable = [true] ∧
      defaultLast.properties.map Property.mutable = [false] :=
  ⟨rfl, rfl, rfl, rfl, rfl, rfl⟩

end Account

end BeanDispatch
