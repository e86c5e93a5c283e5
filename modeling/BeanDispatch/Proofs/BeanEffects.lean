import BeanDispatch.Proofs.BeanFields

/-! What the operations on beans do to a heap. A constructor makes one object and stores cast values
into its fields; a write stores into the fields of the bean; everything else leaves the heap alone.
`Filled` says what stores into one object can amount to, whatever their number and whether the last
of them failed, and `BeanOutcome` how an operation that yields a bean can come out. Both are read
off the operations once, so frames and invariants need no second look at them. -/

namespace BeanDispatch

/-! ### Stores into one object -/

/-- Values have been stored into one object, each cast to the type of a descriptor and under its
name. -/
inductive Filled (t : ClassTable) (descriptors : List Descriptor) (ref : Ref) :
    Heap → Heap → Prop
  | refl (h : Heap) : Filled t descriptors ref h h
  | stored {h next after : Heap} {d : Descriptor} {value : Value} {slot : Slot}
    (listed : d ∈ descriptors) (casts : t.cast value d.type = .ok slot)
    (done : h.store? ref d.name slot = some next) (rest : Filled t descriptors ref next after) :
    Filled t descriptors ref h after

namespace Filled

variable {t : ClassTable} {descriptors more : List Descriptor} {ref : Ref}
  {before mid after : Heap}

theorem trans (first : Filled t descriptors ref before mid)
    (second : Filled t descriptors ref mid after) : Filled t descriptors ref before after := by
  induction first with
  | refl => exact second
  | stored listed casts done _ ih => exact .stored listed casts done (ih second)

theorem mono (fills : Filled t descriptors ref before after)
    (listed : ∀ d ∈ descriptors, d ∈ more) : Filled t more ref before after := by
  induction fills with
  | refl => exact .refl _
  | stored member casts done _ ih => exact .stored (listed _ member) casts done ih

theorem size_eq (fills : Filled t descriptors ref before after) :
    after.objects.size = before.objects.size := by
  induction fills with
  | refl => rfl
  | stored _ _ done _ ih => exact ih.trans (Heap.size_store? done)

theorem keys_eq (fills : Filled t descriptors ref before after) (other : Ref) :
    (after.fields other).keys = (before.fields other).keys := by
  induction fills with
  | refl => rfl
  | stored _ _ done _ ih => exact ih.trans (Heap.keys_store? done other)

theorem frame (fills : Filled t descriptors ref before after) {other : Ref}
    (differs : other.id ≠ ref.id) : after.fields other = before.fields other := by
  induction fills with
  | refl => rfl
  | stored _ _ done _ ih => rw [ih, Heap.fields_store? done, if_neg differs]

theorem field?_eq (fills : Filled t descriptors ref before after) {name : String}
    (unnamed : ∀ d ∈ descriptors, d.name ≠ name) (other : Ref) :
    after.field? other name = before.field? other name := by
  induction fills with
  | refl => rfl
  | stored listed _ done _ ih =>
    rw [ih, Heap.field?_store? done, if_neg fun here => unnamed _ listed here.2]

end Filled

/-! ### Constructors -/

variable {t : ClassTable} {h after : Heap} {ref : Ref}

/-- The reference that the next object of a class gets. -/
def Heap.next (h : Heap) (cls : String) : Ref := ⟨h.objects.size, cls⟩

def ClassTable.withNew (t : ClassTable) (cls : String) (h : Heap) : Heap :=
  (h.allocate cls (t.layout cls)).2

namespace ClassTable

theorem size_withNew (t : ClassTable) (cls : String) (h : Heap) :
    (t.withNew cls h).objects.size = h.objects.size + 1 :=
  Array.size_push _

theorem fields_withNew_next (t : ClassTable) (cls : String) (h : Heap) :
    (t.withNew cls h).fields (h.next cls) = t.layout cls :=
  (h.fields_allocate cls (t.layout cls) (h.next cls)).trans (if_pos rfl)

theorem fields_withNew_old (t : ClassTable) (cls : String) {h : Heap} {ref : Ref}
    (old : ref.id < h.objects.size) : (t.withNew cls h).fields ref = h.fields ref :=
  (h.fields_allocate cls (t.layout cls) ref).trans (if_neg (Nat.ne_of_lt old))

end ClassTable

theorem Filled.fields_old {descriptors : List Descriptor} {cls : String}
    (fills : Filled t descriptors (h.next cls) (t.withNew cls h) after) {ref : Ref}
    (old : ref.id < h.objects.size) : after.fields ref = h.fields ref :=
  (fills.frame (Nat.ne_of_lt old)).trans (t.fields_withNew_old cls old)

namespace ClassTable

/-- An instance is refused, or it is the next object. -/
theorem newInstance_outcome (t : ClassTable) (cls : String) (h : Heap) :
    (∃ fault, t.newInstance cls h = (.error fault, h)) ∨
      t.newInstance cls h = (.ok (h.next cls), t.withNew cls h) := by
  rw [newInstance]
  cases t.require cls with
  | error fault => exact .inl ⟨fault, rfl⟩
  | ok d =>
    rw [Action.ofExcept_ok, pure_bind]
    cases d.isInterface with
    | true => exact .inl ⟨_, rfl⟩
    | false => exact .inr rfl

/-- A new object fails for want of a class that can have one. -/
theorem newInstance_error {cls : String} {fault : Fault}
    (fails : t.newInstance cls h = (.error fault, after)) :
    fault = .unknownClass cls ∨ fault = .notInstantiable cls := by
  rw [newInstance] at fails
  cases required : t.require cls with
  | error other =>
    rw [required] at fails
    cases fails
    left
    rw [require] at required
    split at required <;> cases required
    rfl
  | ok d =>
    rw [required, Action.ofExcept_ok, pure_bind] at fails
    cases interface : d.isInterface with
    | true =>
      rw [interface] at fails
      cases fails
      exact .inr rfl
    | false =>
      rw [interface] at fails
      cases fails

end ClassTable

/-- An argument that cannot be stored ends the constructor; otherwise it goes on behind it. -/
theorem storeArguments_cons (t : ClassTable) (ref : Ref) (argument : Descriptor)
    (arguments : List Descriptor) (value : Value) (values : List Value) (h : Heap) :
    (∃ fault, storeArguments t ref (argument :: arguments) (value :: values) h =
      (.error fault, h)) ∨
      ∃ slot stored, t.cast value argument.type = .ok slot ∧
        h.store? ref argument.name slot = some stored ∧
        storeArguments t ref (argument :: arguments) (value :: values) h =
          storeArguments t ref arguments values stored := by
  rw [storeArguments]
  cases casts : t.cast value argument.type with
  | error fault => exact .inl ⟨fault, rfl⟩
  | ok slot =>
    rw [Action.ofExcept_ok, pure_bind, Action.bind_apply_ok _ (Action.store_apply ref _ slot h)]
    cases done : h.store? ref argument.name slot with
    | none => exact .inl ⟨_, rfl⟩
    | some stored => exact .inr ⟨slot, stored, rfl, done, rfl⟩

/-- Whether it fails or not, a constructor only stores into the object that it fills. -/
theorem storeArguments_filled (t : ClassTable) (ref : Ref) (arguments : List Descriptor)
    (values : List Value) (h : Heap) :
    Filled t arguments ref h (storeArguments t ref arguments values h).2 := by
  induction arguments generalizing values h with
  | nil => exact .refl h
  | cons argument rest ih =>
    cases values with
    | nil => exact .refl h
    | cons value values =>
      rcases storeArguments_cons t ref argument rest value values h with
        ⟨fault, fails⟩ | ⟨slot, stored, casts, done, goesOn⟩
      · rw [fails]
        exact .refl h
      · rw [goesOn]
        have filled := (ih values stored).mono fun d => List.mem_cons_of_mem argument
        exact .stored List.mem_cons_self casts done filled

/-- A constructor refuses, or it makes an object and stores the arguments into it. -/
theorem fieldConstructor_outcome (cls : String) (arguments : List Descriptor) (t : ClassTable)
    (values : List Value) (h : Heap) :
    (∃ fault, fieldConstructor cls arguments t values h = (.error fault, h)) ∨
      fieldConstructor cls arguments t values h =
        (storeArguments t (h.next cls) arguments values >>= fun _ =>
          pure (.object (h.next cls))) (t.withNew cls h) := by
  rcases t.newInstance_outcome cls h with ⟨fault, refused⟩ | made
  · exact .inl ⟨fault, Action.bind_apply_error _ refused⟩
  · exact .inr (Action.bind_apply_ok _ made)

theorem fieldConstructor_ok {cls : String} {arguments : List Descriptor} {values : List Value}
    {bean : Value} (makes : fieldConstructor cls arguments t values h = (.ok bean, after)) :
    bean = .object (h.next cls) ∧
      storeArguments t (h.next cls) arguments values (t.withNew cls h) = (.ok (), after) := by
  rcases fieldConstructor_outcome cls arguments t values h with ⟨fault, refused⟩ | made
  · rw [refused] at makes
    cases makes
  · rw [made] at makes
    obtain ⟨_, mid, stores, done⟩ := Action.exists_of_bind_apply makes
    cases done
    exact ⟨rfl, stores⟩

/-! ### Operations -/

namespace Introspection

variable {i : Introspection CompiledType} {p : Property} {bean value : Value}

/-- What is described about the fields that are ever stored into. -/
def storable (i : Introspection CompiledType) : List Descriptor :=
  (i.properties.filter fun p => !p.readOnly).map Property.descriptor ++ i.constructorArguments

theorem mem_storable (member : p ∈ i.properties) (writable : p.readOnly = false) :
    p.descriptor ∈ i.storable := by
  refine List.mem_append_left _ (List.mem_map_of_mem (List.mem_filter.2 ⟨member, ?_⟩))
  rw [writable]
  rfl

/-- How an operation that yields a bean can come out on a heap: with a failure, with the bean that
it was given, or with a new one. An attempt at a new bean may fail and leave an object behind. -/
inductive BeanOutcome (i : Introspection CompiledType) (given? : Option Value) (h : Heap) :
    Except Failure Value × Heap → Prop
  | failed (failure : Failure) : BeanOutcome i given? h (.error failure, h)
  | kept {bean : Value} {ref : Ref} {after : Heap} (given : given? = some bean)
    (fills : Filled i.generated.classes i.storable ref h after) :
    BeanOutcome i given? h (.ok bean, after)
  | made {outcome : Except Failure Value} {after : Heap}
    (fills : Filled i.generated.classes i.storable (h.next i.beanType)
      (i.generated.classes.withNew i.beanType h) after)
    (fresh : ∀ bean, outcome = .ok bean → bean = .object (h.next i.beanType)) :
    BeanOutcome i given? h (outcome, after)

/-- Whether a copy gets the property by a write, its constructor not setting it. -/
def carries (i : Introspection CompiledType) (p : Property) : Bool :=
  !(i.constructs p.name || p.readOnly)

theorem carries_iff :
    i.carries p = true ↔ i.constructs p.name = false ∧ p.readOnly = false := by
  rw [carries, Bool.not_eq_true', Bool.or_eq_false_iff]

theorem writable_of_carries (carried : i.carries p = true) : p.readOnly = false :=
  (carries_iff.1 carried).2

theorem mem_storable_of_carries {d : Descriptor}
    (carried : d ∈ (i.properties.filter i.carries).map Property.descriptor) :
    d ∈ i.storable := by
  obtain ⟨p, listed, rfl⟩ := List.mem_map.1 carried
  obtain ⟨member, carries⟩ := List.mem_filter.1 listed
  exact mem_storable member (writable_of_carries carries)

def copyArgument (i : Introspection CompiledType) (p : Property) (bean value : Value)
    (argument : Descriptor) : Action Failure Value :=
  if argument.name = p.name then pure value
  else
    match i.property? argument.name with
    | some property => i.get property bean
    | none => throw (.unsupported (.noProperty argument))

theorem copyArguments_cons (i : Introspection CompiledType) (p : Property) (bean value : Value)
    (argument : Descriptor) (rest : List Descriptor) :
    i.copyArguments p bean value (argument :: rest) = (do
      let here ← i.copyArgument p bean value argument
      let later ← i.copyArguments p bean value rest
      return here :: later) := by
  rw [copyArguments, copyArgument]
  split
  · rfl
  · cases i.property? argument.name <;> rfl

theorem writable_of_set {h after : Heap} (sets : i.set p bean value h = (.ok (), after)) :
    p.readOnly = false := by
  cases readOnly : p.readOnly with
  | false => rfl
  | true =>
    rw [set, readOnly] at sets
    obtain ⟨_, mid, _, rest⟩ := Action.exists_of_bind_apply sets
    cases rest

theorem copyWith_writable (writable : p.readOnly = false) (bean value : Value) :
    i.copyWith p bean value = (i.set p bean value >>= fun _ => pure bean) := by
  rw [copyWith, writable]
  rfl

theorem copyWith_fixed (readOnly : p.readOnly = true) (fixed : i.constructs p.name = false)
    (bean value : Value) :
    i.copyWith p bean value = throw (.unsupported (.noCopy i.beanType p.descriptor.type)) := by
  rw [copyWith, readOnly, fixed]
  rfl

/-- A read-only property that a constructor argument sets is changed in a copy. -/
theorem copyWith_constructs (readOnly : p.readOnly = true)
    (constructs : i.constructs p.name = true) (bean value : Value) :
    i.copyWith p bean value = (do
      let args ← i.copyArguments p bean value i.constructorArguments
      let copy ← i.instantiateWith { strictNullable := false } args
      i.carryOver bean copy i.properties
      return copy) := by
  rw [copyWith, readOnly, constructs]
  rfl

namespace OverFields

theorem set_filled (based : i.OverFields) (member : p ∈ i.properties)
    (writable : p.readOnly = false) (ref : Ref) (value : Value) (h : Heap) :
    Filled i.generated.classes [p.descriptor] ref h (i.set p (.object ref) value h).2 := by
  rcases ran : i.set p (.object ref) value h with ⟨failure | _, after⟩
  · rw [based.set_error member ran]
    exact .refl h
  · obtain ⟨_, _, _, isObject, _, casts, done⟩ :=
      FieldTarget.write_eq_ok_iff.1 ((based.set_eq_ok_iff member writable).1 ran)
    cases isObject
    exact .stored List.mem_cons_self casts done (.refl _)

theorem filled_of_set (based : i.OverFields) (member : p ∈ i.properties) {h after : Heap}
    (sets : i.set p bean value h = (.ok (), after)) :
    ∃ ref, bean = .object ref ∧ Filled i.generated.classes i.storable ref h after := by
  have writable := writable_of_set sets
  obtain ⟨_, ref, _, rfl, _⟩ :=
    FieldTarget.write_eq_ok_iff.1 ((based.set_eq_ok_iff member writable).1 sets)
  have filled := based.set_filled member writable ref value h
  rw [sets] at filled
  refine ⟨ref, rfl, filled.mono fun d one => ?_⟩
  rcases List.mem_singleton.1 one with rfl
  exact mem_storable member writable

/-- Instantiation refuses, or it runs the constructor for as many arguments. -/
theorem instantiateWith_cases (based : i.OverFields) (options : InstantiateOptions)
    (args : List Value) (h : Heap) :
    (∃ failure, i.instantiateWith options args h = (.error failure, h)) ∨
      ∃ arguments, (args = [] ∧ arguments = [] ∨ args ≠ [] ∧ arguments = i.constructorArguments) ∧
        i.instantiateWith options args h = Action.widen .dispatch
          (fieldConstructor i.beanType arguments i.generated.classes args) h := by
  rw [instantiateWith]
  cases args with
  | nil =>
    rcases based.constructDefault with absent | present
    · exact .inl ⟨_, congrFun absent h⟩
    · exact .inr ⟨[], .inl ⟨rfl, rfl⟩, congrFun present h⟩
  | cons value values =>
    rw [List.isEmpty_cons, if_neg Bool.false_ne_true]
    by_cases asMany : (value :: values).length = i.constructorArguments.length
    · have arguments : i.constructorArguments ≠ [] := by
        intro none
        rw [none] at asMany
        cases asMany
      rw [if_neg (not_not_intro asMany)]
      cases i.firstProblem? options i.constructorArguments (value :: values) with
      | some problem => exact .inl ⟨_, rfl⟩
      | none =>
        refine .inr ⟨i.constructorArguments, .inr ⟨List.cons_ne_nil _ _, rfl⟩, ?_⟩
        exact congrFun (based.construct arguments (value :: values)) h
    · rw [if_pos asMany]
      exact .inl ⟨_, rfl⟩

/-- A constructor whose arguments are described makes a bean. -/
theorem construct_outcome {arguments : List Descriptor} (listed : ∀ d ∈ arguments, d ∈ i.storable)
    (values : List Value) (h : Heap) :
    i.BeanOutcome none h (Action.widen .dispatch
      (fieldConstructor i.beanType arguments i.generated.classes values) h) := by
  rw [Action.widen_apply]
  rcases fieldConstructor_outcome i.beanType arguments i.generated.classes values h with
    ⟨fault, refused⟩ | made
  · rw [refused]
    exact .failed _
  · rw [made]
    have fills := (storeArguments_filled i.generated.classes (h.next i.beanType) arguments values
      (i.generated.classes.withNew i.beanType h)).mono listed
    rcases ran : storeArguments i.generated.classes (h.next i.beanType) arguments values
      (i.generated.classes.withNew i.beanType h) with ⟨fault | _, after⟩
    · rw [ran] at fills
      rw [Action.bind_apply_error _ ran]
      exact .made fills nofun
    · rw [ran] at fills
      rw [Action.bind_apply_ok _ ran]
      refine .made fills fun bean isBean => ?_
      cases isBean
      rfl

theorem instantiateWith_outcome (based : i.OverFields) (options : InstantiateOptions)
    (args : List Value) (h : Heap) : i.BeanOutcome none h (i.instantiateWith options args h) := by
  rcases based.instantiateWith_cases options args h with
    ⟨failure, refused⟩ | ⟨arguments, which, runs⟩
  · rw [refused]
    exact .failed failure
  · rw [runs]
    refine construct_outcome (fun d member => ?_) args h
    rcases which with ⟨_, rfl⟩ | ⟨_, rfl⟩
    · cases member
    · exact List.mem_append_right _ member

theorem copyArgument_quiet (based : i.OverFields) (p : Property) (bean value : Value)
    (argument : Descriptor) : (i.copyArgument p bean value argument).Quiet := by
  rw [copyArgument]
  split
  · exact fun _ => rfl
  · split
    · rename_i q found
      exact based.get_quiet (based.lookup _ _ found).1 bean
    · exact fun _ => rfl

theorem copyArguments_quiet (based : i.OverFields) (p : Property) (bean value : Value)
    (arguments : List Descriptor) : (i.copyArguments p bean value arguments).Quiet := by
  induction arguments with
  | nil => exact fun _ => rfl
  | cons argument rest ih =>
    rw [copyArguments_cons]
    refine (based.copyArgument_quiet p bean value argument).bind fun here => ?_
    exact ih.bind fun later _ => rfl

theorem carryOver_cons (based : i.OverFields) (member : p ∈ i.properties) (bean copy : Value)
    (rest : List Property) :
    i.carryOver bean copy (p :: rest) =
      if i.carries p then (do
        let value ← i.get p bean
        i.set p copy value
        i.carryOver bean copy rest)
      else i.carryOver bean copy rest := by
  obtain ⟨index, isRead, _⟩ := based.read p member
  have readable : p.isWriteOnly = false := by simp [Property.isWriteOnly, isRead]
  rw [carryOver, readable, Bool.or_false, carries]

/-- Carrying over only stores into the fields of the copy that it carries. -/
theorem carryOver_filled (based : i.OverFields) {properties : List Property}
    (listed : ∀ p ∈ properties, p ∈ i.properties) (bean : Value) (ref : Ref) (h : Heap) :
    Filled i.generated.classes ((properties.filter i.carries).map Property.descriptor) ref h
      (i.carryOver bean (.object ref) properties h).2 := by
  induction properties generalizing h with
  | nil => exact .refl h
  | cons p rest ih =>
    obtain ⟨member, later⟩ := List.forall_mem_cons.1 listed
    rw [based.carryOver_cons member, List.filter_cons]
    by_cases carried : i.carries p = true
    · rw [if_pos carried, if_pos carried, List.map_cons]
      rcases (based.get_quiet member bean).cases h with ⟨failure, fails⟩ | ⟨value, gets⟩
      · rw [Action.bind_apply_error _ fails]
        exact .refl h
      · rw [Action.bind_apply_ok _ gets]
        have stores := based.set_filled member (writable_of_carries carried) ref value h
        have first : Filled i.generated.classes
            (p.descriptor :: (rest.filter i.carries).map Property.descriptor) ref h
            (i.set p (.object ref) value h).2 :=
          stores.mono fun d one => List.mem_cons.2 (.inl (List.mem_singleton.1 one))
        rcases sets : i.set p (.object ref) value h with ⟨failure | _, stored⟩
        · rw [sets] at first
          rw [Action.bind_apply_error _ sets]
          exact first
        · rw [sets] at first
          rw [Action.bind_apply_ok _ sets]
          exact first.trans ((ih later stored).mono fun d => List.mem_cons_of_mem _)
    · rw [if_neg carried, if_neg carried]
      exact ih later h

theorem withValue_eq (based : i.OverFields) (member : p ∈ i.properties) (bean value : Value) :
    i.withValue p bean value = (do
      let current ← i.get p bean
      if current.same value then return bean
      i.copyWith p bean value) := by
  obtain ⟨index, isRead, _⟩ := based.read p member
  have readable : p.read.isSome = true := by rw [isRead]; rfl
  rw [withValue, based.wither p member, readable, based.get_eq member]
  cases i.checkBean bean with
  | error failure => rfl
  | ok => simp

/-- An attempt at a copy makes one object and stores into it alone. -/
theorem copyWith_made (based : i.OverFields) (readOnly : p.readOnly = true)
    (constructs : i.constructs p.name = true) (bean value : Value) (h : Heap) :
    i.BeanOutcome (some bean) h (i.copyWith p bean value h) := by
  rw [copyWith_constructs readOnly constructs]
  rcases (based.copyArguments_quiet p bean value i.constructorArguments).cases h with
    ⟨failure, fails⟩ | ⟨args, collects⟩
  · rw [Action.bind_apply_error _ fails]
    exact .failed failure
  · rw [Action.bind_apply_ok _ collects]
    rcases makes : i.instantiateWith { strictNullable := false } args h with ⟨outcome, mid⟩
    have made := based.instantiateWith_outcome { strictNullable := false } args h
    rw [makes] at made
    cases made with
    | failed failure =>
      rw [Action.bind_apply_error _ makes]
      exact .failed failure
    | kept given => cases given
    | made fills fresh =>
      cases outcome with
      | error failure =>
        rw [Action.bind_apply_error _ makes]
        exact .made fills nofun
      | ok copy =>
        cases fresh copy rfl
        rw [Action.bind_apply_ok _ makes]
        have carried := fills.trans ((based.carryOver_filled (fun _ => id) bean
          (h.next i.beanType) mid).mono fun d => mem_storable_of_carries)
        rcases carries : i.carryOver bean (.object (h.next i.beanType)) i.properties mid with
          ⟨failure | _, after⟩
        · rw [carries] at carried
          rw [Action.bind_apply_error _ carries]
          exact .made carried nofun
        · rw [carries] at carried
          rw [Action.bind_apply_ok _ carries]
          refine .made carried fun copy isCopy => ?_
          cases isCopy
          rfl

theorem copyWith_outcome (based : i.OverFields) (member : p ∈ i.properties) (bean value : Value)
    (h : Heap) : i.BeanOutcome (some bean) h (i.copyWith p bean value h) := by
  cases readOnly : p.readOnly with
  | false =>
    rw [copyWith_writable readOnly]
    rcases sets : i.set p bean value h with ⟨failure | _, after⟩
    · rw [Action.bind_apply_error _ sets, based.set_error member sets]
      exact .failed failure
    · rw [Action.bind_apply_ok _ sets]
      obtain ⟨ref, _, fills⟩ := based.filled_of_set member sets
      exact .kept rfl fills
  | true =>
    cases constructs : i.constructs p.name with
    | false =>
      rw [copyWith_fixed readOnly constructs]
      exact .failed _
    | true => exact based.copyWith_made readOnly constructs bean value h

/-- A bean with a value is the bean itself or a copy, and a failure leaves at most a new object. -/
theorem withValue_outcome (based : i.OverFields) (member : p ∈ i.properties) (bean value : Value)
    (h : Heap) : i.BeanOutcome (some bean) h (i.withValue p bean value h) := by
  rw [based.withValue_eq member]
  rcases (based.get_quiet member bean).cases h with ⟨failure, fails⟩ | ⟨current, gets⟩
  · rw [Action.bind_apply_error _ fails]
    exact .failed failure
  · rw [Action.bind_apply_ok _ gets]
    cases current.same value with
    | true =>
      have unchanged : Filled i.generated.classes i.storable (h.next i.beanType) h h := .refl h
      exact .kept rfl unchanged
    | false => exact based.copyWith_outcome member bean value h

end OverFields

theorem BeanOutcome.error_frame {given? : Option Value} {failure : Failure} {h after : Heap}
    (outcome : i.BeanOutcome given? h (.error failure, after)) (ref : Ref)
    (old : ref.id < h.objects.size) : after.fields ref = h.fields ref := by
  cases outcome with
  | failed => rfl
  | made fills => exact fills.fields_old old

end Introspection

end BeanDispatch
