import BeanDispatch.Proofs.BeanCopy
import BeanDispatch.Proofs.HandleDispatch
import BeanDispatch.Proofs.TableGrowth

/-! Checks of values and casts of values. An introspection asks for the class of a value before it
passes the value on, and the routines then cast it. The two agree on all values but one kind: the
wrapper classes can be instantiated and extended like any other class, and an object of such a class
is an instance of the wrapper without having a primitive inside. Such an object poses as a
primitive: it gets through the checks and fails at the cast. Any other value that is not null can be
cast if the check lets it through. -/

namespace BeanDispatch

/-! ### Instances and casts -/

namespace ClassTable

variable {t : ClassTable} {value : Value} {type : TypeName}

/-- The value is an object of the wrapper class of the primitive type, or of a class below it. -/
def Poses (t : ClassTable) (value : Value) (type : TypeName) : Prop :=
  ∃ ref kind, value = .object ref ∧ type = .primitive kind ∧
    t.isSubtype ref.cls kind.wrapper = true

theorem Poses.isInstance (poses : t.Poses value type) : t.isInstance value type.boxed = true := by
  obtain ⟨ref, kind, rfl, rfl, sub⟩ := poses
  exact sub

theorem Poses.cast (poses : t.Poses value type) :
    ∃ found expected, t.cast value type = .error (.classCast found expected) := by
  obtain ⟨ref, kind, rfl, rfl, _⟩ := poses
  cases kind <;> exact ⟨_, _, rfl⟩

/-- No wrapper is below another one. -/
theorem eq_of_isSubtype_wrapper (reached : t.Reachable) {found expected : Primitive}
    (sub : t.isSubtype found.wrapper expected.wrapper = true) : found = expected := by
  have known : builtin.contains found.wrapper = true := by cases found <;> rfl
  rw [(Conserves.of_reachable reached).isSubtype known] at sub
  revert sub
  cases found <;> cases expected <;> decide

theorem isSubtype_string_wrapper (reached : t.Reachable) (kind : Primitive) :
    t.isSubtype Builtin.string kind.wrapper = false := by
  rw [(Conserves.of_reachable reached).isSubtype rfl]
  cases kind <;> rfl

/-- Apart from objects, only a boxed primitive is an instance of its wrapper. -/
theorem exists_unbox? (reached : t.Reachable) (notNull : value.isNull = false)
    (notObject : ∀ ref, value ≠ .object ref) {kind : Primitive}
    (sub : t.isSubtype value.className kind.wrapper = true) :
    ∃ slot, Slot.unbox? value kind = some slot := by
  have same {found : Primitive} (isWrapper : value.className = found.wrapper) : found = kind :=
    eq_of_isSubtype_wrapper reached (isWrapper ▸ sub)
  cases value with
  | null => cases notNull
  | bool _ => cases @same .boolean rfl; exact ⟨_, rfl⟩
  | int _ => cases @same .int rfl; exact ⟨_, rfl⟩
  | long _ => cases @same .long rfl; exact ⟨_, rfl⟩
  | double _ => cases @same .double rfl; exact ⟨_, rfl⟩
  | str _ =>
    rw [Value.className, isSubtype_string_wrapper reached kind] at sub
    cases sub
  | object ref => exact absurd rfl (notObject ref)

/-- The values that can be cast to a type are the instances of the type of its boxed values, except
those that pose. -/
theorem exists_cast_iff (reached : t.Reachable) (notNull : value.isNull = false) :
    (∃ slot, t.cast value type = .ok slot) ↔
      t.isInstance value type.boxed = true ∧ ¬t.Poses value type := by
  constructor
  · rintro ⟨slot, casts⟩
    refine ⟨?_, fun poses => ?_⟩
    · rcases isInstance_boxed_of_cast casts with isNull | isInstance
      · rw [notNull] at isNull
        cases isNull
      · exact isInstance
    · obtain ⟨_, _, fails⟩ := poses.cast
      rw [casts] at fails
      cases fails
  · rintro ⟨isInstance, genuine⟩
    cases type with
    | void => cases isInstance
    | named name => exact ⟨_, if_pos (Bool.or_eq_true_iff.2 (.inr isInstance))⟩
    | primitive kind =>
      have sub : t.isSubtype value.className kind.wrapper = true :=
        (Bool.and_eq_true_iff.1 isInstance).2
      have notObject : ∀ ref, value ≠ .object ref := by
        rintro ref rfl
        exact genuine ⟨ref, kind, rfl, rfl, sub⟩
      obtain ⟨slot, unboxed⟩ := exists_unbox? reached notNull notObject sub
      exact ⟨slot, by rw [cast, unboxed]⟩

end ClassTable

/-! ### Writes of field properties -/

/-- The property stands where a field with this descriptor is declared. -/
def Introspection.IsField {γ : Type} (i : Introspection γ) (ds : List Declaration) (p : Property)
    (d : Descriptor) : Prop :=
  ∃ declared, (Declaration.field d).property? i.beanType = some declared ∧
    (p, declared) ∈ i.properties.zip (ds.filterMap (Declaration.property? i.beanType))

namespace Builder

variable {b : Builder} {ds : List Declaration} {t : ClassTable} {i : Introspection CompiledType}
  {p : Property} {d : Descriptor} {ref : Ref} {value : Value} {h : Heap}

theorem Recorded.standsFor (recorded : b.Recorded ds []) (built : b.build t = .ok i)
    {declared : DeclaredProperty}
    (paired : (p, declared) ∈ i.properties.zip (ds.filterMap (Declaration.property? i.beanType))) :
    p.recorded.StandsFor b.catalog.Records declared := by
  obtain ⟨_, routines, _, rfl⟩ := build_ok built
  have properties : List.Forall₂
      (fun p d => (Property.recorded p).StandsFor b.catalog.Records d)
      (b.finish t routines).properties (ds.filterMap (Declaration.property? b.beanType)) :=
    List.forall₂_map_left_iff.2 recorded.properties
  exact List.forall₂_zip properties paired

theorem exists_write_of_isField (recorded : b.Recorded ds []) (built : b.build t = .ok i)
    (field : i.IsField ds p d) : p.descriptor = d ∧ p.readOnly = false ∧
      ∃ index, p.write = some index ∧ ∀ target arg,
        GeneratedType.dispatchOne i.generated index target arg =
          FieldTarget.write ⟨i.beanType, d.name, d.type⟩ t target arg := by
  obtain ⟨declared, declares, paired⟩ := field
  cases declares
  have stands := recorded.standsFor built paired
  obtain ⟨_, routines, emitted, rfl⟩ := build_ok built
  obtain ⟨pending, _, rfl⟩ := List.mem_map.1 (List.of_mem_zip paired).1
  obtain ⟨index, isWrite, recordedWrite⟩ := eq_some_of_rel stands.write
  have writable : pending.write.isNone = false := Option.isNone_eq_false_iff.2 (isWrite ▸ rfl)
  have writes := RoutineSet.dispatchSingle_offer emitted (recordedWrite.mem_select rfl)
  exact ⟨stands.descriptor, writable, index, isWrite, writes.2 t⟩

/-- A field property of a bean that has the field takes the values that can be cast to its type, and
refuses all others: by a check those that are no instances, and at the cast those that pose. -/
theorem set_of_isField (reached : t.Reachable) (recorded : b.Recorded ds [])
    (built : b.build t = .ok i) (field : i.IsField ds p d)
    (isBean : t.isSubtype ref.cls i.beanType = true) {old : Slot}
    (present : h.field? ref d.name = some old) (notNull : value.isNull = false) :
    (t.isInstance value d.type.boxed = false →
      i.set p (.object ref) value h = (.error (.mismatch (.propertyValue value d.type.boxed)), h)) ∧
    (t.isInstance value d.type.boxed = true → ¬t.Poses value d.type →
      ∃ slot after, t.cast value d.type = .ok slot ∧ h.store? ref d.name slot = some after ∧
        i.set p (.object ref) value h = (.ok (), after)) ∧
    (t.Poses value d.type → ∃ found expected,
      i.set p (.object ref) value h = (.error (.dispatch (.classCast found expected)), h)) := by
  obtain ⟨rfl, writable, index, isWrite, writes⟩ := exists_write_of_isField recorded built field
  have classes : i.generated.classes = t := by
    obtain ⟨_, _, _, rfl⟩ := build_ok built
    rfl
  subst classes
  rw [Introspection.set_eq_write writable isWrite writes, Introspection.checkBean_object isBean]
  have checks (isInstance : i.generated.classes.isInstance value p.descriptor.type.boxed = true) :
      i.checkValue p value = .ok () := if_pos (Bool.or_eq_true_iff.2 (.inr isInstance))
  refine ⟨fun other => ?_, fun isInstance genuine => ?_, fun poses => ?_⟩
  · have refuses : i.checkValue p value =
        .error (.mismatch (.propertyValue value p.descriptor.type.boxed)) := by
      refine if_neg fun admitted => ?_
      rw [notNull] at admitted
      exact Bool.false_ne_true (other.symm.trans admitted)
    rw [refuses]
    rfl
  · obtain ⟨slot, casts⟩ := (ClassTable.exists_cast_iff reached notNull).2 ⟨isInstance, genuine⟩
    obtain ⟨after, done⟩ := Heap.exists_store?_iff.2 ⟨old, present⟩
    refine ⟨slot, after, casts, done, ?_⟩
    rw [checks isInstance]
    exact Action.bind_apply_ok _ (Action.widen_eq_ok_iff.2
      (FieldTarget.write_eq_ok_iff.2 ⟨rfl, ref, slot, rfl, isBean, casts, done⟩))
  · obtain ⟨found, expected, fails⟩ := poses.cast
    have receives : i.generated.classes.cast (.object ref) (.named i.beanType) =
        .ok (.ref (.object ref)) := ClassTable.cast_object_iff.2 ⟨isBean, rfl⟩
    refine ⟨found, expected, ?_⟩
    rw [checks poses.isInstance, FieldTarget.write, receives, fails]
    rfl

end Builder

/-! ### Field constructors -/

theorem exists_cast_of_storeArguments {t : ClassTable} {ref : Ref} {arguments : List Descriptor}
    {values : List Value} {h after : Heap} {found expected : String}
    (fails : storeArguments t ref arguments values h =
      (.error (.classCast found expected), after)) :
    ∃ pair ∈ arguments.zip values,
      t.cast pair.2 pair.1.type = .error (.classCast found expected) := by
  induction arguments generalizing values h with
  | nil => cases fails
  | cons argument arguments ih =>
    cases values with
    | nil => cases fails
    | cons value values =>
      rw [storeArguments] at fails
      cases casts : t.cast value argument.type with
      | error fault =>
        rw [casts] at fails
        cases fails
        exact ⟨_, List.mem_cons_self, casts⟩
      | ok slot =>
        rw [casts, Action.ofExcept_ok, pure_bind,
          Action.bind_apply_ok _ (Action.store_apply ref _ slot h)] at fails
        cases done : h.store? ref argument.name slot with
        | none =>
          rw [done] at fails
          cases fails
        | some stored =>
          rw [done] at fails
          obtain ⟨pair, listed, refused⟩ := ih fails
          exact ⟨pair, List.mem_cons_of_mem _ listed, refused⟩

theorem exists_cast_of_fieldConstructor {cls : String} {arguments : List Descriptor}
    {t : ClassTable} {values : List Value} {h after : Heap} {found expected : String}
    (fails : fieldConstructor cls arguments t values h =
      (.error (.classCast found expected), after)) :
    ∃ pair ∈ arguments.zip values,
      t.cast pair.2 pair.1.type = .error (.classCast found expected) := by
  rcases Action.cases_of_bind_apply_error fails with refused | ⟨ref, mid, _, rest⟩
  · rcases ClassTable.newInstance_error refused with unknown | notInstantiable
    · cases unknown
    · cases notInstantiable
  · rcases Action.cases_of_bind_apply_error rest with refused | ⟨_, _, _, done⟩
    · exact exists_cast_of_storeArguments refused
    · cases done

namespace Introspection

variable {i : Introspection CompiledType} {options : InstantiateOptions}

theorem isInstance_of_firstProblem? {arguments : List Descriptor} {values : List Value}
    (none : i.firstProblem? options arguments values = none) :
    ∀ pair ∈ arguments.zip values, pair.2.isNull = false →
      i.generated.classes.isInstance pair.2 pair.1.type.boxed = true := by
  induction arguments generalizing values with
  | nil => exact fun pair absent => absurd absent List.not_mem_nil
  | cons argument arguments ih =>
    cases values with
    | nil => exact fun pair absent => absurd absent List.not_mem_nil
    | cons value values =>
      rw [firstProblem?, Option.or_eq_none_iff] at none
      obtain ⟨here, later⟩ := none
      refine List.forall_mem_cons.2 ⟨fun notNull => ?_, ih later⟩
      rw [argumentProblem?, if_neg (Bool.eq_false_iff.1 notNull)] at here
      split at here
      · assumption
      · cases here

/-- The constructor for as many arguments stores them into fields. -/
def StoresArguments (i : Introspection CompiledType) (args : List Value) : Prop :=
  if args.isEmpty then i.generated.defaultConstructor = some (fieldConstructor i.beanType [])
  else i.generated.constructor = some (fieldConstructor i.beanType i.constructorArguments)

/-- Instantiation through a field constructor fails at a cast only for a value that poses. -/
theorem exists_poses_of_instantiateWith (reached : i.generated.classes.Reachable)
    {args : List Value} (stores : i.StoresArguments args)
    (notNull : ∀ value ∈ args, value.isNull = false) {h after : Heap} {found expected : String}
    (fails : i.instantiateWith options args h =
      (.error (.dispatch (.classCast found expected)), after)) :
    ∃ pair ∈ i.constructorArguments.zip args, i.generated.classes.Poses pair.2 pair.1.type := by
  have injective : Function.Injective Failure.dispatch := fun _ _ => Failure.dispatch.inj
  rw [instantiateWith] at fails
  cases args with
  | nil =>
    -- the default constructor casts nothing
    have has : i.generated.defaultConstructor = some (fieldConstructor i.beanType []) := stores
    rw [List.isEmpty_nil, if_pos rfl, CompiledType.constructDefault_eq has] at fails
    obtain ⟨_, absent, _⟩ := exists_cast_of_fieldConstructor (Action.of_widen_error injective fails)
    cases absent
  | cons value values =>
    have has : i.generated.constructor =
        some (fieldConstructor i.beanType i.constructorArguments) := stores
    rw [List.isEmpty_cons, if_neg Bool.false_ne_true] at fails
    split at fails
    · cases fails
    cases checked : i.firstProblem? options i.constructorArguments (value :: values) with
    | some problem =>
      rw [checked] at fails
      cases fails
    | none =>
      rw [checked] at fails
      dsimp only at fails
      rw [CompiledType.construct_eq has] at fails
      obtain ⟨pair, listed, refused⟩ :=
        exists_cast_of_fieldConstructor (Action.of_widen_error injective fails)
      have some := notNull pair.2 (List.of_mem_zip listed).2
      refine ⟨pair, listed, by_contra fun genuine => ?_⟩
      obtain ⟨slot, casts⟩ := (ClassTable.exists_cast_iff reached some).2
        ⟨isInstance_of_firstProblem? checked pair listed some, genuine⟩
      rw [refused] at casts
      cases casts

end Introspection

/-! ### Checks and casts -/

theorem Introspection.set_setInterceptable (i : Introspection CompiledType) (on : Bool)
    (p : Property) (bean value : Value) :
    (i.setInterceptable on).set p bean value = i.set p bean value := rfl

/-- A value that is not null can be cast to a type exactly if it is an instance of the type of its
boxed values and does not pose. So a bean with the field of a property takes such a value, and of
the others it refuses by the cast only those that pose; and instantiation through a field
constructor fails at a cast only if one of the arguments poses for its type. -/
theorem Builder.checks_agree_with_casts {b : Builder} {ds : List Declaration} {t : ClassTable}
    {i : Introspection CompiledType} {beanType : String} (reached : t.Reachable)
    (declared : (Builder.start beanType).declareAll ds = b) (built : b.build t = .ok i)
    (on : Bool) :
    (∀ value type, value.isNull = false →
      ((∃ slot, t.cast value type = .ok slot) ↔
        t.isInstance value type.boxed = true ∧ ¬t.Poses value type)) ∧
    (∀ p d, i.IsField ds p d → ∀ ref h, t.isSubtype ref.cls beanType = true →
      (∃ old, h.field? ref d.name = some old) → ∀ value, value.isNull = false →
        (t.isInstance value d.type.boxed = false →
          (i.setInterceptable on).set p (.object ref) value h =
            (.error (.mismatch (.propertyValue value d.type.boxed)), h)) ∧
        (t.isInstance value d.type.boxed = true → ¬t.Poses value d.type → ∃ slot after,
          t.cast value d.type = .ok slot ∧ h.store? ref d.name slot = some after ∧
            (i.setInterceptable on).set p (.object ref) value h = (.ok (), after)) ∧
        (t.Poses value d.type → ∃ found expected,
          (i.setInterceptable on).set p (.object ref) value h =
            (.error (.dispatch (.classCast found expected)), h))) ∧
    ∀ options args, i.StoresArguments args → (∀ value ∈ args, value.isNull = false) →
      ∀ h after found expected, (i.setInterceptable on).instantiateWith options args h =
        (.error (.dispatch (.classCast found expected)), after) →
      ∃ pair ∈ i.constructorArguments.zip args, t.Poses pair.2 pair.1.type := by
  have recorded := recorded_of_declared declared
  have sameType : i.beanType = beanType := by
    obtain ⟨_, _, _, rfl⟩ := build_ok built
    rw [← declared]
    exact beanType_declareAll _ ds
  have sameClasses : i.generated.classes = t := by
    obtain ⟨_, _, _, rfl⟩ := build_ok built
    rfl
  refine ⟨fun value type notNull => ClassTable.exists_cast_iff reached notNull, ?_, ?_⟩
  · rintro p d field ref h isBean ⟨old, present⟩ value notNull
    rw [← sameType] at isBean
    rw [Introspection.set_setInterceptable]
    exact set_of_isField reached recorded built field isBean present notNull
  · intro options args stores notNull h after found expected fails
    subst sameClasses
    have switched : (i.setInterceptable on).generated.classes.Reachable := reached
    exact Introspection.exists_poses_of_instantiateWith switched stores notNull fails

namespace Account

theorem reachable_classes : classes.Reachable := by
  have defined : ClassTable.builtin.define
      { ClassDef.ofClass "Account" with fields := [⟨"owner", .null⟩, ⟨"balance", .int 0⟩] } =
      .ok classes := rfl
  exact .define .builtin defined

def adas : Heap := ⟨#[fieldsOf "Ada"]⟩

theorem isField_balance : introspection.IsField declarations balanceProperty balance :=
  ⟨_, rfl, List.mem_cons_of_mem _ List.mem_cons_self⟩

/-- A text is refused as a balance before the cast, a number is stored, and an account for an owner
who is a text never fails at a cast. -/
theorem checks_agree_with_casts_account :
    introspection.set balanceProperty account (.str "seven") adas =
        (.error (.mismatch (.propertyValue (.str "seven") (.named Builtin.integer))), adas) ∧
      (∃ after, introspection.set balanceProperty account (.int 9) adas = (.ok (), after)) ∧
      ∀ h after found expected, introspection.instantiate [.str "Ada"] h ≠
        (.error (.dispatch (.classCast found expected)), after) := by
  have built : ((Builder.start "Account").declareAll declarations).build classes =
      .ok introspection := rfl
  obtain ⟨_, sets, makes⟩ := Builder.checks_agree_with_casts reachable_classes rfl built false
  have present : ∃ old, adas.field? ⟨0, "Account"⟩ "balance" = some old := ⟨_, rfl⟩
  have store (value : Value) (notNull : value.isNull = false) :=
    sets balanceProperty balance isField_balance ⟨0, "Account"⟩ adas rfl present value notNull
  refine ⟨(store (.str "seven") rfl).1 rfl, ?_, fun h after found expected fails => ?_⟩
  · obtain ⟨_, after, _, _, ran⟩ := (store (.int 9) rfl).2.1 rfl nofun
    exact ⟨after, ran⟩
  · obtain ⟨pair, listed, poses⟩ :=
      makes {} [.str "Ada"] rfl (by decide) h after found expected fails
    cases List.mem_singleton.1 listed
    obtain ⟨_, _, isObject, _⟩ := poses
    cases isObject

/-- An object of the wrapper class itself is an instance of it that cannot be cast. -/
theorem wrapper_object_fails_cast :
    (classes.newInstance Builtin.integer adas).1 = .ok ⟨1, Builtin.integer⟩ ∧
      classes.isInstance (.object ⟨1, Builtin.integer⟩) (TypeName.primitive .int).boxed = true ∧
      classes.cast (.object ⟨1, Builtin.integer⟩) (.primitive .int) =
        .error (.classCast Builtin.integer Builtin.integer) ∧
      introspection.set balanceProperty account (.object ⟨1, Builtin.integer⟩) adas =
        (.error (.dispatch (.classCast Builtin.integer Builtin.integer)), adas) :=
  ⟨rfl, rfl, rfl, rfl⟩

end Account

end BeanDispatch
