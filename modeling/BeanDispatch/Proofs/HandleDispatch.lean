import BeanDispatch.Proofs.CaseCoverage
import BeanDispatch.Proofs.RecordedIndices

/-! What handles dispatch to. An introspection asks its generated type only about the indices that
its properties and methods hold, so it behaves alike over any two generated types that agree there.
Every index that is held has a case in the routine that it is passed to: accessors and methods for
one argument in dispatch with one argument, all other methods in dispatch with an argument list, and
all methods in the search for methods, as long as that is emitted. So it makes no difference what a
routine does where it has no case. -/

namespace BeanDispatch

/-! ### Introspections over other generated types -/

namespace Introspection

variable {γ δ : Type} [GeneratedType γ] [GeneratedType δ]

/-- The same members over another generated type. -/
def withGenerated (i : Introspection γ) (g : δ) : Introspection δ where
  generated := g
  beanType := i.beanType
  properties := i.properties
  methods := i.methods
  constructorArguments := i.constructorArguments
  constructorAnnotations := i.constructorAnnotations

/-- Another generated type does the same as that of the introspection, apart from dispatch by
indices that no member passes to it. -/
structure Agrees (i : Introspection γ) (g : δ) : Prop where
  access : ∀ p ∈ i.properties, ∀ index ∈ p.recorded.indices, ∀ target arg,
    GeneratedType.dispatchOne g index target arg =
      GeneratedType.dispatchOne i.generated index target arg
  single : ∀ m ∈ i.methods, m.singleValue = true → ∀ target arg,
    GeneratedType.dispatchOne g m.index target arg =
      GeneratedType.dispatchOne i.generated m.index target arg
  multi : ∀ m ∈ i.methods, m.singleValue = false → ∀ target args,
    GeneratedType.dispatch g m.index target args =
      GeneratedType.dispatch i.generated m.index target args
  isInstance : ∀ value type,
    GeneratedType.isInstance g value type = GeneratedType.isInstance i.generated value type
  construct : ∀ args, GeneratedType.construct g args = GeneratedType.construct i.generated args
  constructDefault :
    GeneratedType.constructDefault g = GeneratedType.constructDefault i.generated
  findProperty : ∀ name properties,
    GeneratedType.findProperty g name properties =
      GeneratedType.findProperty i.generated name properties

theorem mem_of_property? {i : Introspection γ} {name : String} {p : Property}
    (found : i.property? name = some p) : p ∈ i.properties := by
  obtain ⟨position, _, placed⟩ := Option.bind_eq_some_iff.1 found
  exact List.mem_of_getElem? placed

end Introspection

namespace Introspection.Agrees

variable {γ δ : Type} [GeneratedType γ] [GeneratedType δ]
  {i : Introspection γ} {g : δ} {p : Property}

theorem checkBean (agrees : i.Agrees g) (bean : Value) :
    (i.withGenerated g).checkBean bean = i.checkBean bean := by
  unfold Introspection.checkBean withGenerated
  simp only [agrees.isInstance]

theorem checkValue (agrees : i.Agrees g) (p : Property) (value : Value) :
    (i.withGenerated g).checkValue p value = i.checkValue p value := by
  unfold Introspection.checkValue withGenerated
  simp only [agrees.isInstance]

theorem property? (agrees : i.Agrees g) (name : String) :
    (i.withGenerated g).property? name = i.property? name := by
  unfold Introspection.property? withGenerated
  simp only [agrees.findProperty]

theorem get (agrees : i.Agrees g) (member : p ∈ i.properties) (bean : Value) :
    (i.withGenerated g).get p bean = i.get p bean := by
  unfold Introspection.get
  rw [agrees.checkBean]
  cases isRead : p.read with
  | none => rfl
  | some index =>
    have held : index ∈ p.recorded.indices := by
      simp [PendingProperty.indices, Property.recorded, isRead]
    have same := agrees.access p member index held bean .null
    simp only [withGenerated, same]

theorem set (agrees : i.Agrees g) (member : p ∈ i.properties) (bean value : Value) :
    (i.withGenerated g).set p bean value = i.set p bean value := by
  unfold Introspection.set
  rw [agrees.checkBean, agrees.checkValue]
  cases isWrite : p.write with
  | none => rfl
  | some index =>
    have held : index ∈ p.recorded.indices := by
      simp [PendingProperty.indices, Property.recorded, isWrite]
    have same := agrees.access p member index held bean value
    simp only [withGenerated, same]

theorem firstProblem? (agrees : i.Agrees g) (options : InstantiateOptions)
    (arguments : List Descriptor) (values : List Value) :
    (i.withGenerated g).firstProblem? options arguments values =
      i.firstProblem? options arguments values := by
  induction arguments generalizing values with
  | nil => cases values <;> rfl
  | cons argument arguments ih =>
    cases values with
    | nil => rfl
    | cons value values =>
      have first : (i.withGenerated g).argumentProblem? options argument value =
          i.argumentProblem? options argument value := by
        unfold argumentProblem? withGenerated
        simp only [agrees.isInstance]
      rw [Introspection.firstProblem?, Introspection.firstProblem?, first, ih]

theorem instantiateWith (agrees : i.Agrees g) (options : InstantiateOptions) (args : List Value) :
    (i.withGenerated g).instantiateWith options args = i.instantiateWith options args := by
  unfold Introspection.instantiateWith
  rw [agrees.firstProblem?]
  simp only [withGenerated, agrees.construct, agrees.constructDefault]

theorem copyArguments (agrees : i.Agrees g) (p : Property) (bean value : Value)
    (arguments : List Descriptor) :
    (i.withGenerated g).copyArguments p bean value arguments =
      i.copyArguments p bean value arguments := by
  induction arguments with
  | nil => rfl
  | cons argument arguments ih =>
    rw [Introspection.copyArguments, Introspection.copyArguments, ih, agrees.property?]
    cases found : i.property? argument.name with
    | none => rfl
    | some q => simp only [agrees.get (mem_of_property? found)]

theorem carryOver (agrees : i.Agrees g) (bean copy : Value) {properties : List Property}
    (members : ∀ p ∈ properties, p ∈ i.properties) :
    (i.withGenerated g).carryOver bean copy properties = i.carryOver bean copy properties := by
  induction properties with
  | nil => rfl
  | cons p properties ih =>
    obtain ⟨member, rest⟩ := List.forall_mem_cons.1 members
    have constructs : (i.withGenerated g).constructs p.name = i.constructs p.name := rfl
    rw [Introspection.carryOver, Introspection.carryOver, ih rest, agrees.get member, constructs]
    simp only [agrees.set member]

theorem copyWith (agrees : i.Agrees g) (member : p ∈ i.properties) (bean value : Value) :
    (i.withGenerated g).copyWith p bean value = i.copyWith p bean value := by
  have constructs : (i.withGenerated g).constructs p.name = i.constructs p.name := rfl
  have carries : ∀ copy, (i.withGenerated g).carryOver bean copy (i.withGenerated g).properties =
      i.carryOver bean copy i.properties := fun copy =>
    agrees.carryOver bean copy fun _ found => found
  unfold Introspection.copyWith
  rw [agrees.set member, constructs, agrees.copyArguments]
  simp only [agrees.instantiateWith, carries]
  rfl

theorem withValue (agrees : i.Agrees g) (member : p ∈ i.properties) (bean value : Value) :
    (i.withGenerated g).withValue p bean value = i.withValue p bean value := by
  unfold Introspection.withValue
  rw [agrees.checkBean, agrees.get member, agrees.copyWith member]
  cases isWither : p.wither with
  | none => rfl
  | some index =>
    have held : index ∈ p.recorded.indices := by
      simp [PendingProperty.indices, Property.recorded, isWither]
    have same := agrees.access p member index held bean value
    simp only [withGenerated, same]

theorem invoke (agrees : i.Agrees g) {m : BeanMethod} (member : m ∈ i.methods) (bean : Value)
    (args : List Value) : (i.withGenerated g).invoke m bean args = i.invoke m bean args := by
  unfold Introspection.invoke
  cases single : m.singleValue with
  | true => simp only [withGenerated, agrees.single m member single, if_true]
  | false => simp only [withGenerated, agrees.multi m member single, Bool.false_eq_true, if_false]

end Introspection.Agrees

/-! ### Routines that stray -/

/-- What is done by dispatch to an index that has no case. -/
structure Strays where
  dispatch : UInt32 → Value → List Value → Action Fault Value
  dispatchOne : UInt32 → Value → Value → Action Fault Value
  locate : UInt32 → Action Fault LocatedMethod

/-- A compiled type whose routines stray where they have no case or are absent. -/
structure StrayType where
  compiled : CompiledType
  strays : Strays

namespace StrayType

def covers (g : StrayType) (kind : RoutineKind) (index : UInt32) : Bool :=
  (g.compiled.routines.case? kind index).isSome

instance : GeneratedType StrayType where
  dispatch g index target args :=
    if g.covers .dispatch index then GeneratedType.dispatch g.compiled index target args
    else g.strays.dispatch index target args
  dispatchOne g index target arg :=
    if g.covers .dispatchOne index then GeneratedType.dispatchOne g.compiled index target arg
    else g.strays.dispatchOne index target arg
  locate g index :=
    if g.covers .targetMethod index then GeneratedType.locate g.compiled index
    else g.strays.locate index
  isInstance g := GeneratedType.isInstance g.compiled
  construct g := GeneratedType.construct g.compiled
  constructDefault g := GeneratedType.constructDefault g.compiled
  findProperty g := GeneratedType.findProperty g.compiled

end StrayType

def BeanMethod.routine (m : BeanMethod) : RoutineKind :=
  if m.singleValue then .dispatchOne else .dispatch

namespace Introspection

def setInterceptable (i : Introspection CompiledType) (on : Bool) : Introspection CompiledType :=
  { i with generated := i.generated.setInterceptable on }

/-- The introspection over routines that stray. -/
def straying (i : Introspection CompiledType) (strays : Strays) : Introspection StrayType :=
  i.withGenerated ⟨i.generated, strays⟩

/-- Every index that a member holds has a case in the routine that it is passed to. -/
structure HasCases (i : Introspection CompiledType) : Prop where
  access : ∀ p ∈ i.properties, ∀ index ∈ p.recorded.indices,
    (i.generated.routines.case? .dispatchOne index).isSome = true
  call : ∀ m ∈ i.methods, (i.generated.routines.case? m.routine m.index).isSome = true

theorem HasCases.agrees {i : Introspection CompiledType} (held : i.HasCases) (strays : Strays) :
    i.Agrees (StrayType.mk i.generated strays) where
  access p member index holds target arg := if_pos (held.access p member index holds)
  single m member single target arg := by
    have called := held.call m member
    rw [BeanMethod.routine, if_pos single] at called
    exact if_pos called
  multi m member multi target args := by
    have called := held.call m member
    rw [BeanMethod.routine, multi, if_neg Bool.false_ne_true] at called
    exact if_pos called
  isInstance _ _ := rfl
  construct _ := rfl
  constructDefault := rfl
  findProperty _ _ := rfl

end Introspection

/-! ### Recorded indices -/

theorem Emission.isSome_of_routineOf {α : Type} {kind : RoutineKind} {offers : List (UInt32 × α)}
    {draft : UInt32 → α → Except EmitError Draft} {routine : Option Routine}
    (emitted : routineOf kind offers draft = .ok routine) {index : UInt32} {offer : α}
    (offered : (index, offer) ∈ offers) : (routine.bind (·.case? index)).isSome = true := by
  obtain ⟨_, _, r, _, _, rfl, found⟩ := routineOf_case emitted offered
  rw [Option.bind_some, found]
  rfl

theorem Catalog.Records.isSome_case? {c : Catalog} {options : EmitOptions} {s : RoutineSet}
    {kind : RoutineKind} {index : UInt32} {target : Target} (recorded : c.Records index target)
    (emitted : c.emit options = .ok s) (qualified : target.qualifies options kind = true) :
    (s.case? kind index).isSome = true := by
  obtain ⟨many, single, search⟩ := emit_routines emitted
  cases kind with
  | dispatch =>
    obtain ⟨access, offers⟩ := Option.isSome_iff_exists.1 qualified
    exact Emission.isSome_of_routineOf many (recorded.mem_select offers)
  | dispatchOne =>
    obtain ⟨access, offers⟩ := Option.isSome_iff_exists.1 qualified
    exact Emission.isSome_of_routineOf single (recorded.mem_select offers)
  | targetMethod =>
    obtain ⟨locator, isMethod⟩ := Bool.and_eq_true_iff.1 qualified
    obtain ⟨m, offers⟩ := Option.isSome_iff_exists.1 isMethod
    exact Emission.isSome_of_routineOf (search locator) (recorded.mem_select offers)

def DeclaredProperty.targets (d : DeclaredProperty) : List Target :=
  d.read.toList ++ d.write.toList ++ d.wither.toList

/-- Every accessor takes at most one argument. -/
theorem Declaration.supportsSingle_of_property {d : Declaration} {beanType : String}
    {p : DeclaredProperty} (declares : d.property? beanType = some p) :
    ∀ target ∈ p.targets, target.supportsSingle = true := by
  cases d with
  | field d | readOnlyField d =>
    cases declares
    simp [DeclaredProperty.targets, Target.supportsSingle, Target.single?]
  | property d accessors =>
    cases declares
    obtain ⟨getter, setter, wither⟩ := accessors
    cases getter <;> cases setter <;> cases wither <;>
      simp [DeclaredProperty.targets, Target.supportsSingle, Target.single?, DispatchStyle.single]
  | _ => cases declares

theorem PendingProperty.StandsFor.exists_target {relates : UInt32 → Target → Prop}
    {p : PendingProperty} {d : DeclaredProperty} (stands : p.StandsFor relates d) {index : UInt32}
    (held : index ∈ p.indices) : ∃ target ∈ d.targets, relates index target := by
  simp only [DeclaredProperty.targets, List.mem_append]
  rw [PendingProperty.indices, List.mem_append, List.mem_append] at held
  rcases held with (isRead | isWrite) | isWither
  · obtain ⟨found, inside, related⟩ := exists_of_rel stands.read isRead
    exact ⟨found, .inl (.inl inside), related⟩
  · obtain ⟨found, inside, related⟩ := exists_of_rel stands.write isWrite
    exact ⟨found, .inl (.inr inside), related⟩
  · obtain ⟨found, inside, related⟩ := exists_of_rel stands.wither isWither
    exact ⟨found, .inr inside, related⟩

/-- A method is called through a routine that its target qualifies for. -/
theorem BeanMethod.StandsFor.qualifies {relates : UInt32 → Target → Prop}
    {beanType thisType : String} {m : BeanMethod} {d : MethodDeclaration}
    (stands : m.StandsFor relates beanType thisType d) (options : EmitOptions) :
    (d.target beanType thisType).qualifies options m.routine = true := by
  rw [BeanMethod.routine, stands.single]
  obtain ⟨name, result, arguments, owner, viaInterface, style, annotations, bridge⟩ := d
  cases bridge with
  | some pair => rfl
  | none => cases style <;> rfl

theorem MethodDeclaration.isMethod_target (beanType thisType : String) (d : MethodDeclaration) :
    (d.target beanType thisType).isMethod = true := by
  obtain ⟨name, result, arguments, owner, viaInterface, style, annotations, bridge⟩ := d
  cases bridge <;> rfl

/-! ### Built introspections -/

namespace Builder

variable {b : Builder} {ds : List Declaration} {t : ClassTable} {i : Introspection CompiledType}

theorem hasCases_of_build (recorded : b.Recorded ds []) (built : b.build t = .ok i) :
    i.HasCases := by
  obtain ⟨_, routines, emitted, rfl⟩ := build_ok built
  constructor
  · intro p member index held
    obtain ⟨pending, listed, rfl⟩ := List.mem_map.1 member
    obtain ⟨d, isDeclared, stands⟩ := exists_of_forall₂ recorded.properties listed
    obtain ⟨declaration, _, declares⟩ := List.mem_filterMap.1 isDeclared
    obtain ⟨target, asked, found⟩ := stands.exists_target held
    exact found.isSome_case? emitted (Declaration.supportsSingle_of_property declares target asked)
  · intro m member
    obtain ⟨d, _, stands⟩ := exists_of_forall₂ recorded.methods member
    exact stands.index.isSome_case? emitted (stands.qualifies b.options)

theorem isSome_search_iff (recorded : b.Recorded ds []) (built : b.build t = .ok i)
    {m : BeanMethod} (member : m ∈ i.methods) :
    (i.generated.routines.case? .targetMethod m.index).isSome = true ↔
      b.options.locator = true := by
  obtain ⟨_, routines, emitted, rfl⟩ := build_ok built
  obtain ⟨d, _, stands⟩ := exists_of_forall₂ recorded.methods member
  constructor
  · intro found
    cases locator : b.options.locator with
    | true => rfl
    | false =>
      have absent := (Catalog.emit_options emitted).2 locator
      change (routines.targetMethod.bind _).isSome = true at found
      rw [absent] at found
      cases found
  · intro locator
    refine stands.index.isSome_case? emitted ?_
    rw [Target.qualifies, locator, MethodDeclaration.isMethod_target]
    rfl

/-- Whatever is declared and built, no use of a property or method depends on what the routines do
where they have no case, with interception on or off: every index that is held has a case where it
is dispatched to. The search for a method has one exactly if searches are emitted, and always fails
with the index of the method if they are not. -/
theorem handles_reach_cases {beanType : String}
    (declared : (Builder.start beanType).declareAll ds = b) (built : b.build t = .ok i)
    (on : Bool) (strays : Strays) :
    (∀ p ∈ i.properties,
      (∀ index ∈ p.recorded.indices,
        (i.generated.routines.case? .dispatchOne index).isSome = true) ∧
      ∀ bean value,
        ((i.setInterceptable on).straying strays).get p bean =
          (i.setInterceptable on).get p bean ∧
        ((i.setInterceptable on).straying strays).set p bean value =
          (i.setInterceptable on).set p bean value ∧
        ((i.setInterceptable on).straying strays).withValue p bean value =
          (i.setInterceptable on).withValue p bean value) ∧
    ∀ m ∈ i.methods,
      (i.generated.routines.case? m.routine m.index).isSome = true ∧
      (∀ bean args, ((i.setInterceptable on).straying strays).invoke m bean args =
        (i.setInterceptable on).invoke m bean args) ∧
      ((i.generated.routines.case? .targetMethod m.index).isSome = true ↔
        b.options.locator = true) ∧
      (b.options.locator = true → ((i.setInterceptable on).straying strays).reflect m =
        (i.setInterceptable on).reflect m) ∧
      (b.options.locator = false → (i.setInterceptable on).reflect m =
        throw (.dispatch (.unknownIndex m.index))) := by
  have recorded := recorded_of_declared declared
  have held := hasCases_of_build recorded built
  have heldThen : (i.setInterceptable on).HasCases := ⟨held.access, held.call⟩
  have agrees := heldThen.agrees strays
  constructor
  · intro p member
    exact ⟨held.access p member, fun bean value => ⟨agrees.get member bean,
      agrees.set member bean value, agrees.withValue member bean value⟩⟩
  · intro m member
    have searches := isSome_search_iff recorded built member
    refine ⟨held.call m member, agrees.invoke member, searches, ?_, ?_⟩
    · intro locator
      exact congrArg (Action.widen Failure.dispatch) (if_pos (searches.2 locator))
    · intro off
      have none : i.generated.routines.case? .targetMethod m.index = none := by
        rw [← Option.not_isSome_iff_eq_none, searches, off]
        exact Bool.false_ne_true
      show Action.widen Failure.dispatch (i.generated.routines.locate _ m.index) = _
      rw [RoutineSet.locate, RoutineSet.execute_of_no_case none]
      rfl

end Builder

namespace Teller

def builder : Builder := (Builder.start "Teller").declareAll declarations

def routines : RoutineSet := (builder.catalog.emit {}).toOption.getD ⟨"", false, none, none, none⟩

def introspection : Introspection CompiledType := builder.finish classes routines

/-- Dispatch to an index without a case is lost. -/
def lost : Strays where
  dispatch _ _ _ := throw (.native "lost")
  dispatchOne _ _ _ := throw (.native "lost")
  locate _ := throw (.native "lost")

/-- The getter has no case in dispatch with an argument list and would be lost there. No use of a
method or property is. -/
theorem handles_reach_cases_teller :
    builder.build classes = .ok introspection ∧
      GeneratedType.dispatch (StrayType.mk introspection.generated lost) 0 .null [] =
        throw (.native "lost") ∧
      (∀ p ∈ introspection.properties, ∀ bean,
        ((introspection.setInterceptable true).straying lost).get p bean =
          (introspection.setInterceptable true).get p bean) ∧
      ∀ m ∈ introspection.methods, ∀ bean args,
        ((introspection.setInterceptable true).straying lost).invoke m bean args =
          (introspection.setInterceptable true).invoke m bean args := by
  have built : builder.build classes = .ok introspection := rfl
  obtain ⟨properties, methods⟩ := Builder.handles_reach_cases rfl built true lost
  refine ⟨built, rfl, fun p member bean => ?_, fun m member => (methods m member).2.1⟩
  exact ((properties p member).2 bean .null).1

end Teller

end BeanDispatch
