import BeanDispatch.Proofs.ConstructorHistory
import BeanDispatch.Proofs.PropertyLookup

/-! Calls of constructors. Whatever a generated type is, an instantiation either calls its default
constructor, or it passes all the values on to its constructor, or it refuses the values and calls
neither. Which of these it is depends on the values, their arguments and the type test, and not on
the constructors: an instantiation amounts to a call if it comes to the same as that call with
whatever constructors stand in the place of its own. They may do anything to the heap, such as
counting their calls there, so it is one call and no more. -/

namespace BeanDispatch

/-! ### Constructors in the place of others -/

/-- A generated type with constructors in the place of its own. -/
structure Reconstructed (γ : Type) where
  base : γ
  construct : List Value → Action Failure Value
  constructDefault : Action Failure Value

instance {γ : Type} [GeneratedType γ] : GeneratedType (Reconstructed γ) where
  dispatch g := GeneratedType.dispatch g.base
  dispatchOne g := GeneratedType.dispatchOne g.base
  locate g := GeneratedType.locate g.base
  isInstance g := GeneratedType.isInstance g.base
  construct g := g.construct
  constructDefault g := g.constructDefault
  findProperty g := GeneratedType.findProperty g.base

/-- What an instantiation can come to: a call without values, a call with some values, or a
problem with the values. -/
inductive Instantiation
  | default
  | given (args : List Value)
  | refused (problem : Uninstantiable)

namespace Instantiation

def run (construct : List Value → Action Failure Value) (constructDefault : Action Failure Value) :
    Instantiation → Action Failure Value
  | default => constructDefault
  | given args => construct args
  | refused problem => throw (.instantiation problem)

/-- Constructors can be told apart by what they answer, and so can the values they are called with. -/
theorem eq_of_run_eq {x y : Instantiation}
    (same : ∀ construct constructDefault,
      x.run construct constructDefault = y.run construct constructDefault) : x = y := by
  have answers : ∀ expected : List Value,
      (x.run (fun args => pure (.bool (args = expected))) (pure .null) .empty).1 =
        (y.run (fun args => pure (.bool (args = expected))) (pure .null) .empty).1 :=
    fun expected => congrArg Prod.fst (congrFun (same _ _) .empty)
  cases x with
  | default =>
    cases y with
    | default => rfl
    | given args => cases answers args
    | refused problem => cases answers []
  | given args =>
    cases y with
    | default => cases answers args
    | given others =>
      have isSame : (args = args : Bool) = (others = args : Bool) :=
        Value.bool.inj (Except.ok.inj (answers args))
      rw [(by simpa using isSame : others = args)]
    | refused problem => cases answers []
  | refused problem =>
    cases y with
    | default | given args => cases answers []
    | refused other => rw [Failure.instantiation.inj (Except.error.inj (answers []))]

end Instantiation

namespace Introspection

variable {γ : Type} [GeneratedType γ] {i : Introspection γ} {options : InstantiateOptions}
  {args : List Value} {argument : Descriptor} {value : Value} {problem : Uninstantiable}
  {x : Instantiation}

/-- Instantiation comes to this with whatever constructors. -/
def AmountsTo (i : Introspection γ) (options : InstantiateOptions) (args : List Value)
    (x : Instantiation) : Prop :=
  ∀ construct constructDefault,
    (i.over (Reconstructed.mk i.generated construct constructDefault)).instantiateWith options args =
      x.run construct constructDefault

/-- What the values come to. -/
def instantiation (i : Introspection γ) (options : InstantiateOptions) (args : List Value) :
    Instantiation :=
  if args.isEmpty then .default
  else (i.refusal? options args).elim (.given args) .refused

theorem instantiateWith_eq_run (i : Introspection γ) (options : InstantiateOptions)
    (args : List Value) :
    i.instantiateWith options args = (i.instantiation options args).run
      (GeneratedType.construct i.generated) (GeneratedType.constructDefault i.generated) := by
  cases args with
  | nil => rfl
  | cons value values =>
    have given : value :: values ≠ [] := List.cons_ne_nil _ _
    rw [instantiation, List.isEmpty_cons, if_neg Bool.false_ne_true]
    cases verdict : i.refusal? options (value :: values) with
    | none => exact instantiateWith_accepted given verdict
    | some problem => exact instantiateWith_refused given verdict

/-- The type test of a generated type does not depend on its constructors. -/
theorem instantiation_over (i : Introspection γ) (construct : List Value → Action Failure Value)
    (constructDefault : Action Failure Value) (options : InstantiateOptions) (args : List Value) :
    (i.over (Reconstructed.mk i.generated construct constructDefault)).instantiation options args =
      i.instantiation options args := by
  have problems : ∀ (arguments : List Descriptor) (values : List Value),
      (i.over (Reconstructed.mk i.generated construct constructDefault)).firstProblem? options
        arguments values = i.firstProblem? options arguments values := by
    intro arguments values
    induction arguments generalizing values with
    | nil => rfl
    | cons argument arguments ih =>
      cases values with
      | nil => rfl
      | cons value values =>
        rw [firstProblem?, firstProblem?, ih]
        rfl
  rw [instantiation, instantiation, refusal?, refusal?, problems]
  rfl

/-- Instantiation comes to what its values come to, and to nothing else. -/
theorem amountsTo_iff : i.AmountsTo options args x ↔ x = i.instantiation options args := by
  constructor
  · intro amounts
    refine Instantiation.eq_of_run_eq fun construct constructDefault => ?_
    rw [← amounts construct constructDefault, instantiateWith_eq_run, instantiation_over]
    rfl
  · rintro rfl construct constructDefault
    rw [instantiateWith_eq_run, instantiation_over]
    rfl

/-! ### Values and their arguments -/

/-- A value that may be passed for an argument: null if that is declared or not looked at, and else
an instance of the boxed type. -/
def Admits (i : Introspection γ) (options : InstantiateOptions) (argument : Descriptor)
    (value : Value) : Prop :=
  value = .null ∧ (argument.nullable = true ∨ options.strictNullable = false) ∨
    value ≠ .null ∧ GeneratedType.isInstance i.generated value argument.type.boxed = true

/-- What is wrong with a value that may not. -/
inductive Rejects (i : Introspection γ) (options : InstantiateOptions) (argument : Descriptor)
    (value : Value) : Uninstantiable → Prop
  | null (isNull : value = .null) (undeclared : argument.nullable = false)
    (strict : options.strictNullable = true) :
    Rejects i options argument value (.nullArgument argument.name)
  | invalid (notNull : value ≠ .null)
    (other : GeneratedType.isInstance i.generated value argument.type.boxed = false) :
    Rejects i options argument value (.invalidArgument value argument)

theorem argumentProblem?_null (argument : Descriptor) :
    i.argumentProblem? options argument .null =
      if argument.nullable || !options.strictNullable then none
      else some (.nullArgument argument.name) := rfl

theorem argumentProblem?_of_ne_null (notNull : value ≠ .null) (argument : Descriptor) :
    i.argumentProblem? options argument value =
      if GeneratedType.isInstance i.generated value argument.type.boxed then none
      else some (.invalidArgument value argument) := by
  cases value with
  | null => exact absurd rfl notNull
  | _ => rfl

theorem argumentProblem?_eq_none_iff :
    i.argumentProblem? options argument value = none ↔ i.Admits options argument value := by
  by_cases isNull : value = .null
  · rw [isNull, argumentProblem?_null]
    cases declared : argument.nullable <;> simp [Admits, declared]
  · rw [argumentProblem?_of_ne_null isNull]
    simp [Admits, isNull]

theorem argumentProblem?_eq_some_iff :
    i.argumentProblem? options argument value = some problem ↔
      i.Rejects options argument value problem := by
  by_cases isNull : value = .null
  · rw [isNull, argumentProblem?_null]
    constructor
    · intro found
      split at found
      · cases found
      · rename_i refused
        simp only [Bool.or_eq_true, Bool.not_eq_true', not_or, Bool.not_eq_true,
          Bool.not_eq_false] at refused
        cases found
        exact .null rfl refused.1 refused.2
    · rintro (⟨_, undeclared, strict⟩ | ⟨notNull, _⟩)
      · simp [undeclared, strict]
      · exact absurd rfl notNull
  · rw [argumentProblem?_of_ne_null isNull]
    constructor
    · intro found
      split at found
      · cases found
      · rename_i other
        cases found
        exact .invalid isNull (Bool.not_eq_true _ ▸ other)
    · rintro (⟨rfl, _⟩ | ⟨_, other⟩)
      · exact absurd rfl isNull
      · simp [other]

theorem firstProblem?_eq_findSome? (arguments : List Descriptor) (values : List Value) :
    i.firstProblem? options arguments values = (arguments.zip values).findSome? fun pair =>
      i.argumentProblem? options pair.1 pair.2 := by
  induction arguments generalizing values with
  | nil => rfl
  | cons argument arguments ih =>
    cases values with
    | nil => rfl
    | cons value values =>
      rw [firstProblem?, ih, List.zip_cons_cons, List.findSome?_cons]
      cases i.argumentProblem? options argument value <;> rfl

/-- Values are refused for their number, else for the first one that its argument rejects. -/
theorem refusal?_eq_some_iff :
    i.refusal? options args = some problem ↔
      args.length ≠ i.constructorArguments.length ∧
          problem = .argumentCount args.length i.constructorArguments.length ∨
        args.length = i.constructorArguments.length ∧
          ∃ front argument value back,
            i.constructorArguments.zip args = front ++ (argument, value) :: back ∧
              (∀ pair ∈ front, i.Admits options pair.1 pair.2) ∧
              i.Rejects options argument value problem := by
  rw [refusal?]
  by_cases counted : args.length = i.constructorArguments.length
  · simp only [counted, ne_eq, not_true_eq_false, if_false, false_and, false_or, true_and,
      firstProblem?_eq_findSome?, List.findSome?_eq_some_iff, argumentProblem?_eq_none_iff,
      argumentProblem?_eq_some_iff]
    constructor
    · rintro ⟨front, ⟨argument, value⟩, back, whole, rejects, admits⟩
      exact ⟨front, argument, value, back, whole, admits, rejects⟩
    · rintro ⟨front, argument, value, back, whole, admits, rejects⟩
      exact ⟨front, (argument, value), back, whole, rejects, admits⟩
  · simp [counted, eq_comm]

theorem refusal?_eq_none_iff :
    i.refusal? options args = none ↔ args.length = i.constructorArguments.length ∧
      ∀ pair ∈ i.constructorArguments.zip args, i.Admits options pair.1 pair.2 := by
  rw [refusal?]
  by_cases counted : args.length = i.constructorArguments.length
  · simp only [counted, ne_eq, not_true_eq_false, if_false, true_and, firstProblem?_eq_findSome?,
      List.findSome?_eq_none_iff, argumentProblem?_eq_none_iff]
  · simp [counted]

theorem amountsTo_default_iff : i.AmountsTo options args .default ↔ args = [] := by
  rw [amountsTo_iff, instantiation]
  cases args with
  | nil => simp
  | cons value values => cases i.refusal? options (value :: values) <;> simp

theorem amountsTo_given_iff {values : List Value} :
    i.AmountsTo options args (.given values) ↔
      values = args ∧ args ≠ [] ∧ i.refusal? options args = none := by
  rw [amountsTo_iff, instantiation]
  cases args with
  | nil => simp
  | cons value rest => cases verdict : i.refusal? options (value :: rest) <;> simp

theorem amountsTo_refused_iff :
    i.AmountsTo options args (.refused problem) ↔
      args ≠ [] ∧ i.refusal? options args = some problem := by
  rw [amountsTo_iff, instantiation]
  cases args with
  | nil => simp
  | cons value rest => cases verdict : i.refusal? options (value :: rest) <;> simp [eq_comm]

theorem Admits.lenient {strict lenient : InstantiateOptions} (admits : i.Admits strict argument value)
    (isLenient : lenient.strictNullable = false) : i.Admits lenient argument value :=
  admits.imp_left fun ⟨isNull, _⟩ => ⟨isNull, .inr isLenient⟩

theorem AmountsTo.lenient {strict lenient : InstantiateOptions} (amounts : i.AmountsTo strict args x)
    (accepted : ∀ problem, x ≠ .refused problem) (isLenient : lenient.strictNullable = false) :
    i.AmountsTo lenient args x := by
  cases x with
  | default => exact amountsTo_default_iff.2 (amountsTo_default_iff.1 amounts)
  | given values =>
    obtain ⟨same, given, verdict⟩ := amountsTo_given_iff.1 amounts
    obtain ⟨counted, admits⟩ := refusal?_eq_none_iff.1 verdict
    exact amountsTo_given_iff.2 ⟨same, given, refusal?_eq_none_iff.2
      ⟨counted, fun pair paired => (admits pair paired).lenient isLenient⟩⟩
  | refused problem => exact absurd rfl (accepted problem)

theorem AmountsTo.instantiateWith_eq (amounts : i.AmountsTo options args x) :
    i.instantiateWith options args = x.run
      (GeneratedType.construct i.generated) (GeneratedType.constructDefault i.generated) := by
  rw [instantiateWith_eq_run, ← amountsTo_iff.1 amounts]

/-- The default constructor is called if and only if there are no values. The constructor is called
if and only if there are as many values as arguments, at least one, and every argument admits its
value, and then with these values. Else neither is: the problem is the number of the values,
whatever they are, or what is wrong with the first one that its argument rejects, whatever comes
behind it. If nothing is refused with a look at undeclared nulls, the same is called without. -/
theorem instantiateWith_calls (i : Introspection γ) (options : InstantiateOptions)
    (args : List Value) :
    (i.AmountsTo options args .default ↔ args = []) ∧
      (∀ values, i.AmountsTo options args (.given values) ↔
        values = args ∧ args ≠ [] ∧ args.length = i.constructorArguments.length ∧
          ∀ pair ∈ i.constructorArguments.zip args, i.Admits options pair.1 pair.2) ∧
      (∀ problem, i.AmountsTo options args (.refused problem) ↔
        args ≠ [] ∧
          (args.length ≠ i.constructorArguments.length ∧
              problem = .argumentCount args.length i.constructorArguments.length ∨
            args.length = i.constructorArguments.length ∧
              ∃ front argument value back,
                i.constructorArguments.zip args = front ++ (argument, value) :: back ∧
                  (∀ pair ∈ front, i.Admits options pair.1 pair.2) ∧
                  i.Rejects options argument value problem)) ∧
      (∃ x, i.AmountsTo options args x ∧
        i.instantiateWith options args = x.run
          (GeneratedType.construct i.generated) (GeneratedType.constructDefault i.generated)) ∧
      ∀ x, (∀ problem, x ≠ .refused problem) → i.AmountsTo ⟨true⟩ args x →
        i.AmountsTo ⟨false⟩ args x ∧
          i.instantiateWith ⟨true⟩ args = i.instantiateWith ⟨false⟩ args := by
  refine ⟨amountsTo_default_iff, fun values => ?_, fun problem => ?_,
    ⟨i.instantiation options args, amountsTo_iff.2 rfl, instantiateWith_eq_run i options args⟩, ?_⟩
  · rw [amountsTo_given_iff, refusal?_eq_none_iff]
  · rw [amountsTo_refused_iff, refusal?_eq_some_iff]
  · intro x accepted strict
    have lenient : i.AmountsTo ⟨false⟩ args x := strict.lenient accepted rfl
    exact ⟨lenient, strict.instantiateWith_eq.trans lenient.instantiateWith_eq.symm⟩

end Introspection

namespace Account

/-- Nobody is no owner of an account, unless nobody looks; and two values are too many, whatever
they are. -/
theorem instantiateWith_calls_ownerless :
    introspection.AmountsTo ⟨true⟩ [.null] (.refused (.nullArgument "owner")) ∧
      introspection.AmountsTo ⟨false⟩ [.null] (.given [.null]) ∧
      introspection.AmountsTo ⟨true⟩ [.null, .int 7] (.refused (.argumentCount 2 1)) := by
  refine ⟨?_, ?_, ?_⟩
  · obtain ⟨_, _, refuses, _⟩ := introspection.instantiateWith_calls ⟨true⟩ [.null]
    exact (refuses _).2 ⟨List.cons_ne_nil _ _, .inr ⟨rfl, [], owner, .null, [], rfl, by simp,
      .null rfl rfl rfl⟩⟩
  · obtain ⟨_, gives, _⟩ := introspection.instantiateWith_calls ⟨false⟩ [.null]
    refine (gives _).2 ⟨rfl, List.cons_ne_nil _ _, rfl, fun pair paired => ?_⟩
    have isOwner : pair = (owner, .null) := List.mem_singleton.1 paired
    exact isOwner ▸ .inl ⟨rfl, .inr rfl⟩
  · obtain ⟨_, _, refuses, _⟩ := introspection.instantiateWith_calls ⟨true⟩ [.null, .int 7]
    exact (refuses _).2 ⟨List.cons_ne_nil _ _, .inl ⟨by decide, rfl⟩⟩

end Account

end BeanDispatch
