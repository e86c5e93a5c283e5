import BeanDispatch.Proofs.BeanCopy
import BeanDispatch.Proofs.Hierarchy

/-! Types of fields. Fields hold slots without a type; what keeps them typed is that a field starts
with the content of its declared type and that all that is ever stored was cast to the type of a
property or a constructor argument. If those agree with the declarations of the class, every bean
that a run of operations makes has all its fields typed from then on, whatever else the operations
are given and whether they fail, and a property of such a field can always be read. -/

namespace BeanDispatch

namespace ClassTable

variable {t : ClassTable} {type : TypeName} {slot : Slot} {value : Value}

/-- The slot is a content of the type: the unboxed primitive, null, or an instance. -/
inductive Fits (t : ClassTable) : TypeName → Slot → Prop
  | primitive {kind : Primitive} {slot : Slot} (isKind : slot.primitive? = some kind) :
    Fits t (.primitive kind) slot
  | null {type : TypeName} (isReference : type.primitive? = none) : Fits t type .null
  | inhabits {name : String} {value : Value}
    (isInstance : t.isInstance value (.named name) = true) : Fits t (.named name) (.ref value)

theorem fits_initial (t : ClassTable) (type : TypeName) : t.Fits type (Slot.initial type) := by
  cases type with
  | primitive kind => cases kind <;> exact .primitive rfl
  | void | named name => exact .null rfl

theorem fits_of_cast (casts : t.cast value type = .ok slot) : t.Fits type slot := by
  cases type with
  | void => cases casts
  | primitive kind =>
    simp only [cast] at casts
    split at casts
    · rename_i unboxed found
      cases casts
      exact .primitive (Slot.boxed_of_unbox? found).2
    · split at casts <;> cases casts
  | named name =>
    simp only [cast] at casts
    split at casts
    · rename_i accepted
      cases casts
      rcases Bool.or_eq_true_iff.1 accepted with isNull | isInstance
      · cases value <;> first | exact .null rfl | cases isNull
      · exact .inhabits isInstance
    · cases casts

theorem cast_boxed {kind : Primitive} (isKind : slot.primitive? = some kind) :
    t.cast slot.boxed (.primitive kind) = .ok slot := by
  simp only [cast, Slot.unbox?_boxed isKind]

/-- What fits the type of a field is read as null or an instance of the type of the boxed values,
and not as null if the type is primitive. -/
theorem Fits.valueOf {f : FieldTarget} (fits : t.Fits f.type slot) :
    ∃ value, f.valueOf slot = .ok value ∧
      (value.isNull = true ∨ t.isInstance value f.type.boxed = true) ∧
      (f.type.primitive? ≠ none → value.isNull = false) := by
  unfold FieldTarget.valueOf
  cases isType : f.type with
  | primitive kind =>
    rw [isType] at fits
    cases fits with
    | primitive isKind =>
      refine ⟨slot.boxed, if_pos isKind, isInstance_boxed_of_cast (cast_boxed isKind), fun _ => ?_⟩
      cases slot with
      | ref value => cases isKind
      | _ => rfl
    | null isReference => cases isReference
  | void =>
    rw [isType] at fits
    cases fits
    exact ⟨.null, rfl, .inl rfl, fun some => absurd rfl some⟩
  | named name =>
    rw [isType] at fits
    cases fits with
    | null => exact ⟨.null, rfl, .inl rfl, fun some => absurd rfl some⟩
    | inhabits isInstance => exact ⟨_, rfl, .inr isInstance, fun some => absurd rfl some⟩

/-! ### Declared types -/

/-- The types that the fields of every class are declared with. -/
structure FieldTypes (t : ClassTable) where
  declared : String → List (String × TypeName)
  initial : ∀ d ∈ t.defs,
    d.fields = (declared d.name).map fun f => ⟨f.1, Slot.initial f.2⟩

def FieldTypes.Has (types : t.FieldTypes) (cls name : String) (type : TypeName) : Prop :=
  ∃ d ∈ t.superclassChain cls, (name, type) ∈ types.declared d.name

/-- Every field of the class holds a content of its type. -/
def FieldTypes.Holds (types : t.FieldTypes) (cls : String) (h : Heap) (ref : Ref) : Prop :=
  ∀ name type, types.Has cls name type → ∃ slot, h.field? ref name = some slot ∧ t.Fits type slot

/-- What is described about fields of the class has their types. -/
def FieldTypes.Agrees (types : t.FieldTypes) (cls : String) (descriptors : List Descriptor) :
    Prop :=
  ∀ d ∈ descriptors, ∀ type, types.Has cls d.name type → d.type = type

namespace FieldTypes

variable {types : t.FieldTypes} {cls beanType : String} {h after : Heap} {ref : Ref}
  {descriptors : List Descriptor}

/-- Objects of a class that has the superclasses of the bean type start typed. -/
theorem holds_next (distinct : t.DistinctFields) (types : t.FieldTypes)
    (below : ∀ d ∈ t.superclassChain beanType, d ∈ t.superclassChain cls) (h : Heap) :
    types.Holds beanType (t.withNew cls h) (h.next cls) := by
  rintro name type ⟨d, member, declared⟩
  refine ⟨Slot.initial type, ?_, t.fits_initial type⟩
  have field : (⟨name, Slot.initial type⟩ : FieldDef) ∈ d.fields := by
    rw [types.initial d ((chainIn_sublist t.defs beanType).subset member)]
    exact List.mem_map.2 ⟨(name, type), declared, rfl⟩
  rw [Heap.field?, fields_withNew_next]
  exact distinct.get?_layout (below d member) field

theorem Holds.withNew (holds : types.Holds beanType h ref) (cls : String) :
    types.Holds beanType (t.withNew cls h) ref := by
  intro name type has
  obtain ⟨slot, present, fits⟩ := holds name type has
  refine ⟨slot, ?_, fits⟩
  rw [Heap.field?, t.fields_withNew_old cls (Heap.lt_size_of_field? present)]
  exact present

theorem Holds.filled (agrees : types.Agrees beanType descriptors) {filled : Ref}
    (fills : Filled t descriptors filled h after) (holds : types.Holds beanType h ref) :
    types.Holds beanType after ref := by
  induction fills with
  | refl => exact holds
  | @stored h next after d value slot listed casts done _ ih =>
    refine ih fun name type has => ?_
    obtain ⟨old, present, fits⟩ := holds name type has
    rw [Heap.field?_store? done]
    by_cases here : ref.id = filled.id ∧ d.name = name
    · obtain ⟨sameObject, rfl⟩ := here
      rw [agrees d listed type has] at casts
      exact ⟨slot, if_pos ⟨sameObject, rfl⟩, fits_of_cast casts⟩
    · exact ⟨old, (if_neg here).trans present, fits⟩

end FieldTypes

end ClassTable

/-! ### Runs -/

/-- An operation on beans, or a new object by its class alone. -/
inductive BeanCall
  | instantiate (options : InstantiateOptions) (args : List Value)
  | newInstance (cls : String)
  | get (p : Property) (bean : Value)
  | set (p : Property) (bean value : Value)
  | withValue (p : Property) (bean value : Value)

namespace BeanCall

/-- The property is one of the bean type's, and the class is the bean type or below it. -/
def IsFor (i : Introspection CompiledType) : BeanCall → Prop
  | instantiate _ _ => True
  | newInstance cls => cls = i.beanType ∨ i.generated.classes.Extends cls i.beanType
  | get p _ | set p _ _ | withValue p _ _ => p ∈ i.properties

def perform (i : Introspection CompiledType) : BeanCall → Action Failure Value
  | instantiate options args => i.instantiateWith options args
  | newInstance cls =>
    Action.widen .dispatch do return .object (← i.generated.classes.newInstance cls)
  | get p bean => i.get p bean
  | set p bean value => do
    i.set p bean value
    return .null
  | withValue p bean value => i.withValue p bean value

/-- The object that an outcome is. -/
def object? : Except Failure Value → Option Ref
  | .ok (.object ref) => some ref
  | _ => none

theorem object?_eq_some {outcome : Except Failure Value} {ref : Ref} :
    object? outcome = some ref ↔ outcome = .ok (.object ref) := by
  constructor
  · intro isObject
    unfold object? at isObject
    split at isObject
    · cases isObject
      rfl
    · cases isObject
  · rintro rfl
    rfl

/-- The object that an operation with this outcome has made, if it has made one. -/
def made? : BeanCall → Except Failure Value → Option Ref
  | instantiate _ _, outcome => object? outcome
  | newInstance _, outcome => object? outcome
  | withValue _ bean _, outcome => (object? outcome).filter fun ref => bean ≠ .object ref
  | get _ _, _ | set _ _ _, _ => none

end BeanCall

namespace Introspection

/-- Performs some operations one after the other, whether they fail or not; the objects that they
have made and the heap after the last. -/
def performAll (i : Introspection CompiledType) : List BeanCall → Heap → List Ref × Heap
  | [], h => ([], h)
  | call :: calls, h =>
    let first := call.perform i h
    let rest := i.performAll calls first.2
    ((call.made? first.1).toList ++ rest.1, rest.2)

/-- An instance of the bean type whose fields of the bean type are typed. -/
structure TypedBean (i : Introspection CompiledType) (types : i.generated.classes.FieldTypes)
    (h : Heap) (ref : Ref) : Prop where
  isBean : i.generated.classes.isSubtype ref.cls i.beanType = true
  holds : types.Holds i.beanType h ref

section Runs

variable {i : Introspection CompiledType} {types : i.generated.classes.FieldTypes} {h after : Heap}
  {ref : Ref}

theorem TypedBean.filled (agrees : types.Agrees i.beanType i.storable)
    (typed : i.TypedBean types h ref) {other : Ref}
    (fills : Filled i.generated.classes i.storable other h after) : i.TypedBean types after ref :=
  ⟨typed.isBean, typed.holds.filled agrees fills⟩

/-- An operation that yields a bean leaves typed beans typed, and a new bean is typed. -/
theorem BeanOutcome.typed (distinct : i.generated.classes.DistinctFields)
    (agrees : types.Agrees i.beanType i.storable) {given? : Option Value}
    {outcome : Except Failure Value × Heap} (ends : i.BeanOutcome given? h outcome) :
    (∀ ref, i.TypedBean types h ref → i.TypedBean types outcome.2 ref) ∧
      ∀ ref, outcome.1 = .ok (.object ref) → given? ≠ some (.object ref) →
        i.TypedBean types outcome.2 ref := by
  cases ends with
  | failed failure => exact ⟨fun _ => id, nofun⟩
  | kept given fills =>
    refine ⟨fun ref typed => typed.filled agrees fills, fun ref isResult other => ?_⟩
    cases isResult
    exact absurd given other
  | made fills fresh =>
    refine ⟨fun ref typed => ⟨typed.isBean, (typed.holds.withNew _).filled agrees fills⟩,
      fun ref isResult _ => ?_⟩
    cases fresh _ isResult
    have starts : types.Holds i.beanType (i.generated.classes.withNew i.beanType h)
        (h.next i.beanType) := types.holds_next distinct (fun _ => id) h
    exact ⟨i.generated.classes.isSubtype_refl i.beanType, starts.filled agrees fills⟩

/-- Whether it fails or not, an operation leaves typed beans typed and makes typed ones. -/
theorem OverFields.perform_typed (based : i.OverFields) (reached : i.generated.classes.Reachable)
    (distinct : i.generated.classes.DistinctFields) (agrees : types.Agrees i.beanType i.storable)
    {call : BeanCall} (isFor : call.IsFor i) (h : Heap) :
    (∀ ref, i.TypedBean types h ref → i.TypedBean types (call.perform i h).2 ref) ∧
      ∀ ref, call.made? (call.perform i h).1 = some ref →
        i.TypedBean types (call.perform i h).2 ref := by
  cases call with
  | instantiate options args =>
    obtain ⟨keeps, makes⟩ :=
      (based.instantiateWith_outcome options args h).typed distinct agrees
    exact ⟨keeps, fun ref made => makes ref (BeanCall.object?_eq_some.1 made) nofun⟩
  | newInstance cls =>
    rw [BeanCall.perform, Action.widen_apply]
    rcases i.generated.classes.newInstance_outcome cls h with ⟨fault, refused⟩ | makes
    · rw [Action.bind_apply_error _ refused]
      exact ⟨fun _ => id, nofun⟩
    · rw [Action.bind_apply_ok _ makes]
      refine ⟨fun ref typed => ⟨typed.isBean, typed.holds.withNew cls⟩, fun ref made => ?_⟩
      cases made
      rcases isFor with rfl | below
      · exact ⟨i.generated.classes.isSubtype_refl _, types.holds_next distinct (fun _ => id) h⟩
      · exact ⟨below.isSubtype, types.holds_next distinct (below.superclassChain_subset reached) h⟩
  | get p bean =>
    rw [BeanCall.perform, based.get_quiet isFor bean h]
    exact ⟨fun _ => id, nofun⟩
  | set p bean value =>
    refine ⟨fun ref typed => ?_, nofun⟩
    rw [BeanCall.perform]
    rcases sets : i.set p bean value h with ⟨failure | _, after⟩
    · rw [Action.bind_apply_error _ sets, based.set_error isFor sets]
      exact typed
    · rw [Action.bind_apply_ok _ sets]
      obtain ⟨_, _, fills⟩ := based.filled_of_set isFor sets
      exact typed.filled agrees fills
  | withValue p bean value =>
    obtain ⟨keeps, makes⟩ := (based.withValue_outcome isFor bean value h).typed distinct agrees
    refine ⟨keeps, fun ref made => ?_⟩
    obtain ⟨isObject, other⟩ := Option.filter_eq_some_iff.1 made
    refine makes ref (BeanCall.object?_eq_some.1 isObject) fun same => ?_
    exact of_decide_eq_true other (Option.some.inj same)

/-- Every bean that a run makes is typed after it, and so is every one that was typed before. -/
theorem OverFields.performAll_typed (based : i.OverFields) (reached : i.generated.classes.Reachable)
    (distinct : i.generated.classes.DistinctFields) (agrees : types.Agrees i.beanType i.storable)
    {calls : List BeanCall} (areFor : ∀ call ∈ calls, call.IsFor i) (h : Heap) :
    (∀ ref, i.TypedBean types h ref → i.TypedBean types (i.performAll calls h).2 ref) ∧
      ∀ ref ∈ (i.performAll calls h).1, i.TypedBean types (i.performAll calls h).2 ref := by
  induction calls generalizing h with
  | nil => exact ⟨fun _ => id, fun _ absent => absurd absent List.not_mem_nil⟩
  | cons call calls ih =>
    obtain ⟨isFor, rest⟩ := List.forall_mem_cons.1 areFor
    obtain ⟨keeps, makes⟩ := based.perform_typed reached distinct agrees isFor h
    obtain ⟨keepsRest, makesRest⟩ := ih rest (call.perform i h).2
    refine ⟨fun ref typed => keepsRest ref (keeps ref typed), fun ref made => ?_⟩
    rcases List.mem_append.1 made with here | later
    · exact keepsRest ref (makes ref (Option.mem_toList.1 here))
    · exact makesRest ref later

theorem TypedBean.get (based : i.OverFields) (typed : i.TypedBean types h ref) {p : Property}
    (member : p ∈ i.properties) (has : types.Has i.beanType p.name p.descriptor.type) :
    ∃ value, i.get p (.object ref) h = (.ok value, h) ∧
      (value.isNull = true ∨ i.generated.classes.isInstance value p.descriptor.type.boxed = true) ∧
      (p.descriptor.type.primitive? ≠ none → value.isNull = false) := by
  obtain ⟨slot, present, fits⟩ := typed.holds p.name p.descriptor.type has
  obtain ⟨value, reads, admitted, notNull⟩ :=
    ClassTable.Fits.valueOf (f := p.field i.beanType) fits
  refine ⟨value, ?_, admitted, notNull⟩
  rw [based.get_eq_ok_iff member, FieldTarget.read_eq_ok_iff]
  exact ⟨rfl, ref, slot, rfl, typed.isBean, present, reads⟩

end Runs

/-- The fields of all beans that a run makes are typed after it, whatever the run does besides, and
a property of a typed field can be read from them: as null or an instance of the type, and not as
null if the type is primitive. -/
theorem performAll_keeps_types {t : ClassTable} {beanType : String} {ds : List Declaration}
    {i : Introspection CompiledType} (reached : t.Reachable) (distinct : t.DistinctFields)
    (types : t.FieldTypes) (built : ((Builder.start beanType).declareAll ds).build t = .ok i)
    (fieldBased : ∀ d ∈ ds, d.isFieldBased = true)
    (agrees : types.Agrees beanType (i.properties.map Property.descriptor))
    (agreesArguments : types.Agrees beanType i.constructorArguments)
    {calls : List BeanCall} (areFor : ∀ call ∈ calls, call.IsFor i) (h : Heap) :
    let after := (i.performAll calls h).2
    ∀ ref ∈ (i.performAll calls h).1,
      (∀ name type, types.Has beanType name type →
        ∃ slot, after.field? ref name = some slot ∧ t.Fits type slot) ∧
      ∀ p ∈ i.properties, ∀ type, types.Has beanType p.name type →
        ∃ value, i.get p (.object ref) after = (.ok value, after) ∧
          (value.isNull = true ∨ t.isInstance value type.boxed = true) ∧
          (type.primitive? ≠ none → value.isNull = false) := by
  intro after ref made
  obtain ⟨based, rfl, rfl⟩ := Builder.overFields_of_build built fieldBased
  have stored : types.Agrees i.beanType i.storable := by
    intro d member
    rcases List.mem_append.1 member with described | argument
    · obtain ⟨p, kept, rfl⟩ := List.mem_map.1 described
      exact agrees p.descriptor (List.mem_map_of_mem (List.mem_filter.1 kept).1)
    · exact agreesArguments d argument
  have bean := (based.performAll_typed reached distinct stored areFor h).2 ref made
  refine ⟨bean.holds, fun p member type has => ?_⟩
  cases agrees p.descriptor (List.mem_map_of_mem member) type has
  exact bean.get based member has

end Introspection

namespace Account

/-- The fields of accounts as they are declared. -/
def types : classes.FieldTypes where
  declared cls :=
    if cls = "Account" then [("owner", .named Builtin.string), ("balance", .primitive .int)] else []
  initial := by
    intro d member
    rcases List.mem_cons.1 member with rfl | inherited
    · rfl
    · have bare : ∀ d ∈ ClassTable.builtin.defs, d.fields.isEmpty = true ∧ d.name ≠ "Account" := by
        decide
      obtain ⟨none, other⟩ := bare d inherited
      rw [List.isEmpty_iff.1 none, if_neg other]
      rfl

theorem types_agree {descriptors : List Descriptor}
    (listed : ∀ d ∈ descriptors, d = owner ∨ d = balance) : types.Agrees "Account" descriptors := by
  rintro d member type ⟨e, _, declared⟩
  simp only [types] at declared
  split at declared
  · rcases listed d member with rfl | rfl
    · simpa [owner, Descriptor.name, Descriptor.type, eq_comm] using declared
    · simpa [balance, Descriptor.name, Descriptor.type, eq_comm] using declared
  · cases declared

/-- An account is made, it is copied for another owner, and a text is refused as a balance. -/
def calls : List BeanCall :=
  [.instantiate {} [.str "Ada"], .withValue ownerProperty account (.str "Grace"),
    .set balanceProperty account (.str "seven")]

/-- Both accounts have a number as their balance. -/
theorem performAll_keeps_types_account :
    (introspection.performAll calls Heap.empty).1 = [⟨0, "Account"⟩, ⟨1, "Account"⟩] ∧
      ∀ ref ∈ (introspection.performAll calls Heap.empty).1, ∃ slot,
        (introspection.performAll calls Heap.empty).2.field? ref "balance" = some slot ∧
          classes.Fits (.primitive .int) slot := by
  have defined : ClassTable.builtin.define
      { ClassDef.ofClass "Account" with fields := [⟨"owner", .null⟩, ⟨"balance", .int 0⟩] } =
      .ok classes := rfl
  have distinct : classes.DistinctFields := ClassTable.distinctFields_of_nodup (by decide)
  have built : ((Builder.start "Account").declareAll declarations).build classes =
      .ok introspection := rfl
  have fieldBased : ∀ d ∈ declarations, d.isFieldBased = true := by
    simp [declarations, Declaration.isFieldBased]
  have properties : introspection.properties = [ownerProperty, balanceProperty] := rfl
  have arguments : introspection.constructorArguments = [owner] := rfl
  have agrees : types.Agrees "Account" (introspection.properties.map Property.descriptor) :=
    types_agree (by simp [properties, ownerProperty, balanceProperty])
  have agreesArguments : types.Agrees "Account" introspection.constructorArguments :=
    types_agree (by simp [arguments])
  have areFor : ∀ call ∈ calls, call.IsFor introspection := by
    simp [calls, BeanCall.IsFor, properties]
  have has : types.Has "Account" "balance" (.primitive .int) :=
    ⟨_, List.mem_cons_self, List.mem_cons_of_mem _ List.mem_cons_self⟩
  refine ⟨rfl, fun ref made => ?_⟩
  have typed := Introspection.performAll_keeps_types (.define .builtin defined) distinct types built
    fieldBased agrees agreesArguments areFor Heap.empty ref made
  exact typed.1 "balance" (.primitive .int) has

end Account

end BeanDispatch
