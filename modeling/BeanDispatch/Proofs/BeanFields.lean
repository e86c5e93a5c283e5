import BeanDispatch.Introspection.Builder
import BeanDispatch.Proofs.FieldAccess
import BeanDispatch.Proofs.SingleDispatch

/-! Bean types whose properties are fields. A declaration records an index together with the target
that it appends, and later declarations only append, so a recorded index stands for its target in
the catalog that is emitted in the end. `Builder.OverFields` is what every declaration preserves;
`Introspection.OverFields` is what it comes to once the routines run: a property is read and written
as its field, and a constructor stores its arguments into fields. All that a read or a write of a
property can do follows from it. -/

namespace BeanDispatch

variable {ε δ α : Type}

/-! ### Recorded indices -/

namespace Catalog

variable {c : Catalog} {index : UInt32} {target : Target}

def Records (c : Catalog) (index : UInt32) (target : Target) : Prop :=
  ∃ position : Nat, c.targets[position]? = some target ∧ index = position.toUInt32

theorem records_nextIndex (c : Catalog) (target : Target) :
    (c.append target).Records c.nextIndex target :=
  ⟨c.targets.length, List.getElem?_concat_length, rfl⟩

theorem Records.append (recorded : c.Records index target) (later : Target) :
    (c.append later).Records index target := by
  obtain ⟨position, placed, rfl⟩ := recorded
  have inside : position < c.targets.length := (List.getElem?_eq_some_iff.1 placed).1
  exact ⟨position, (List.getElem?_append_left inside).trans placed, rfl⟩

theorem Records.mem_select {view : Target → Option α} {offer : α}
    (recorded : c.Records index target) (offers : view target = some offer) :
    (index, offer) ∈ c.select view := by
  obtain ⟨position, placed, rfl⟩ := recorded
  have listed : (target, position) ∈ c.targets.zipIdx := List.mem_zipIdx_iff_getElem?.2 placed
  refine List.mem_filterMap.2 ⟨_, listed, ?_⟩
  rw [offers]
  rfl

end Catalog

/-! ### Declarations -/

/-- Properties of this declaration are fields, and its constructors store into fields. -/
def Declaration.isFieldBased : Declaration → Bool
  | .property _ _ | .constructorWith _ _ => false
  | _ => true

/-- The indices of a property stand for its field of the class. -/
structure PendingProperty.OverField (p : PendingProperty) (c : Catalog) (owner : String) :
    Prop where
  read : ∃ index, p.read = some index ∧
    c.Records index (.fieldGet ⟨owner, p.descriptor.name, p.descriptor.type⟩)
  write : ∀ index, p.write = some index →
    c.Records index (.fieldSet ⟨owner, p.descriptor.name, p.descriptor.type⟩)
  wither : p.wither = none

theorem PendingProperty.OverField.append {p : PendingProperty} {c : Catalog} {owner : String}
    (based : p.OverField c owner) (later : Target) : p.OverField (c.append later) owner := by
  obtain ⟨index, isRead, recorded⟩ := based.read
  exact ⟨⟨index, isRead, recorded.append later⟩,
    fun index isWrite => (based.write index isWrite).append later, based.wither⟩

namespace Builder

/-- All properties are fields, and all constructors store into fields. -/
structure OverFields (b : Builder) : Prop where
  properties : ∀ p ∈ b.properties, p.OverField b.catalog b.beanType
  construct : b.constructorArguments ≠ [] →
    b.constructor = some (fieldConstructor b.beanType b.constructorArguments)
  constructDefault : ∀ body, b.defaultConstructor = some body →
    body = fieldConstructor b.beanType []

namespace OverFields

variable {b : Builder}

theorem start (beanType : String) : (Builder.start beanType).OverFields :=
  ⟨fun _ absent => absurd absent List.not_mem_nil, fun absent => absurd rfl absent, nofun⟩

theorem register (based : b.OverFields) (target : Target) : (b.register target).2.OverFields :=
  ⟨fun p member => (based.properties p member).append target, based.construct,
    based.constructDefault⟩

theorem recordProperty (based : b.OverFields) {p : PendingProperty}
    (field : p.OverField b.catalog b.beanType) : (b.recordProperty p).OverFields := by
  refine ⟨fun q member => ?_, based.construct, based.constructDefault⟩
  rcases List.mem_append.1 member with before | last
  · exact based.properties q before
  · rcases List.mem_singleton.1 last with rfl
    exact field

theorem declareField (based : b.OverFields) (d : Descriptor) : (b.declareField d).OverFields := by
  let target : FieldTarget := ⟨b.beanType, d.name, d.type⟩
  have read := (b.catalog.records_nextIndex (.fieldGet target)).append (.fieldSet target)
  have write := (b.catalog.append (.fieldGet target)).records_nextIndex (.fieldSet target)
  refine ((based.register (.fieldGet target)).register (.fieldSet target)).recordProperty
    ⟨⟨_, rfl, read⟩, fun index isWrite => ?_, rfl⟩
  cases isWrite
  exact write

theorem declareReadOnlyField (based : b.OverFields) (d : Descriptor) :
    (b.declareReadOnlyField d).OverFields := by
  let target : FieldTarget := ⟨b.beanType, d.name, d.type⟩
  exact (based.register (.fieldGet target)).recordProperty
    ⟨⟨_, rfl, b.catalog.records_nextIndex (.fieldGet target)⟩, nofun, rfl⟩

theorem installConstructor (based : b.OverFields) (arguments : List Descriptor) :
    (b.installConstructor arguments (fieldConstructor b.beanType arguments)).OverFields := by
  cases arguments with
  | nil =>
    refine ⟨based.properties, fun absent => absurd rfl absent, fun body isBody => ?_⟩
    cases isBody
    rfl
  | cons argument rest => exact ⟨based.properties, fun _ => rfl, based.constructDefault⟩

theorem declare (based : b.OverFields) {d : Declaration} (fieldBased : d.isFieldBased = true) :
    (b.declare d).OverFields := by
  cases d with
  | field d => exact based.declareField d
  | readOnlyField d => exact based.declareReadOnlyField d
  | property d accessors => cases fieldBased
  | method d =>
    have registered := based.register (b.methodTarget d)
    exact ⟨registered.properties, registered.construct, registered.constructDefault⟩
  | constructor arguments => exact based.installConstructor arguments
  | constructorWith arguments body => cases fieldBased
  | defaultConstructor =>
    refine ⟨based.properties, based.construct, fun body isBody => ?_⟩
    cases isBody
    rfl
  | constructorAnnotations annotations | emitOptions options =>
    exact ⟨based.properties, based.construct, based.constructDefault⟩

theorem declareAll (based : b.OverFields) {ds : List Declaration}
    (fieldBased : ∀ d ∈ ds, d.isFieldBased = true) : (b.declareAll ds).OverFields := by
  induction ds generalizing b with
  | nil => exact based
  | cons d ds ih =>
    obtain ⟨first, rest⟩ := List.forall_mem_cons.1 fieldBased
    exact ih (based.declare first) rest

end OverFields

/-- No declaration changes what type it is about. -/
theorem beanType_declare (b : Builder) (d : Declaration) :
    (b.declare d).beanType = b.beanType := by
  cases d with
  | property d accessors =>
    obtain ⟨getter, setter, wither⟩ := accessors
    cases getter <;> cases setter <;> cases wither <;> rfl
  | constructor arguments | constructorWith arguments body =>
    simp only [declare, installConstructor]
    split <;> rfl
  | _ => rfl

theorem beanType_declareAll (b : Builder) (ds : List Declaration) :
    (b.declareAll ds).beanType = b.beanType := by
  induction ds generalizing b with
  | nil => rfl
  | cons d ds ih => exact (ih (b.declare d)).trans (b.beanType_declare d)

end Builder

/-! ### Introspections -/

namespace CompiledType

variable {g : CompiledType} {body : Constructor}

theorem construct_eq (has : g.constructor = some body) (args : List Value) :
    GeneratedType.construct g args = Action.widen Failure.dispatch (body g.classes args) := by
  show g.runConstructor g.constructor _ args = _
  rw [has]
  rfl

theorem constructDefault_eq (has : g.defaultConstructor = some body) :
    GeneratedType.constructDefault g = Action.widen Failure.dispatch (body g.classes []) := by
  show g.runConstructor g.defaultConstructor _ [] = _
  rw [has]
  rfl

end CompiledType

def Property.field (p : Property) (owner : String) : FieldTarget :=
  ⟨owner, p.name, p.descriptor.type⟩

namespace Introspection

/-- Every property is read and written as its field, and the constructors store into fields. -/
structure OverFields (i : Introspection CompiledType) : Prop where
  read : ∀ p ∈ i.properties, ∃ index, p.read = some index ∧ ∀ target arg,
    GeneratedType.dispatchOne i.generated index target arg =
      (p.field i.beanType).read i.generated.classes target
  write : ∀ p ∈ i.properties, ∀ index, p.write = some index → ∀ target arg,
    GeneratedType.dispatchOne i.generated index target arg =
      (p.field i.beanType).write i.generated.classes target arg
  readOnly : ∀ p ∈ i.properties, p.readOnly = p.write.isNone
  wither : ∀ p ∈ i.properties, p.wither = none
  construct : i.constructorArguments ≠ [] → ∀ values,
    GeneratedType.construct i.generated values = Action.widen .dispatch
      (fieldConstructor i.beanType i.constructorArguments i.generated.classes values)
  constructDefault :
    GeneratedType.constructDefault i.generated = throw (.instantiation .noDefaultConstructor) ∨
      GeneratedType.constructDefault i.generated = Action.widen .dispatch
        (fieldConstructor i.beanType [] i.generated.classes [])
  lookup : ∀ name p, i.property? name = some p → p ∈ i.properties ∧ p.name = name

end Introspection

namespace Builder

def finish (b : Builder) (t : ClassTable) (routines : RoutineSet) :
    Introspection CompiledType where
  generated :=
    { routines, classes := t, interceptable := false
      propertyIndex := indexProperties (b.properties.map b.finishProperty)
      constructor := b.constructor
      defaultConstructor := b.defaultConstructor }
  beanType := b.beanType
  properties := b.properties.map b.finishProperty
  methods := b.methods
  constructorArguments := b.constructorArguments
  constructorAnnotations := b.constructorAnnotations

variable {b : Builder} {t : ClassTable} {i : Introspection CompiledType}

theorem build_ok (built : b.build t = .ok i) :
    t.contains b.beanType = true ∧
      ∃ routines, b.catalog.emit b.options = .ok routines ∧ i = b.finish t routines := by
  rw [build] at built
  by_cases known : t.contains b.beanType = true
  · rw [known] at built
    cases emitted : b.catalog.emit b.options with
    | error e =>
      rw [emitted] at built
      cases built
    | ok routines =>
      rw [emitted] at built
      cases built
      exact ⟨known, routines, rfl, rfl⟩
  · rw [Bool.not_eq_true] at known
    rw [known] at built
    cases built

theorem lookup_indexProperties {properties : List Property} {name : String} {position : Nat}
    {p : Property} (found : (indexProperties properties).get? name = some position)
    (placed : properties[position]? = some p) : p ∈ properties ∧ p.name = name := by
  refine ⟨List.mem_of_getElem? placed, ?_⟩
  rw [indexProperties, OrderedMap.get?_ofList] at found
  obtain ⟨⟨q, k⟩, listed, isEntry⟩ :=
    List.mem_map.1 (List.mem_reverse.1 (mem_of_lookupEntry found))
  cases isEntry
  have here := List.mem_zipIdx_iff_getElem?.1 listed
  rw [placed] at here
  cases here
  rfl

theorem OverFields.build (based : b.OverFields) (built : b.build t = .ok i) : i.OverFields := by
  obtain ⟨_, routines, emitted, rfl⟩ := build_ok built
  refine ⟨?_, ?_, ?_, ?_, fun some values => ?_, ?_, fun name p found => ?_⟩
  · intro p member
    obtain ⟨pending, declared, rfl⟩ := List.mem_map.1 member
    obtain ⟨index, isRead, recorded⟩ := (based.properties pending declared).read
    have reads := RoutineSet.dispatchSingle_offer emitted (recorded.mem_select rfl)
    exact ⟨index, isRead, reads.2 t⟩
  · intro p member index isWrite
    obtain ⟨pending, declared, rfl⟩ := List.mem_map.1 member
    have recorded := (based.properties pending declared).write index isWrite
    have writes := RoutineSet.dispatchSingle_offer emitted (recorded.mem_select rfl)
    exact writes.2 t
  · intro p member
    obtain ⟨pending, declared, rfl⟩ := List.mem_map.1 member
    rfl
  · intro p member
    obtain ⟨pending, declared, rfl⟩ := List.mem_map.1 member
    exact (based.properties pending declared).wither
  · exact CompiledType.construct_eq (based.construct some) values
  · cases isDefault : b.defaultConstructor with
    | none =>
      left
      show CompiledType.runConstructor _ b.defaultConstructor _ [] = _
      rw [isDefault]
      rfl
    | some body =>
      right
      rw [based.constructDefault body isDefault] at isDefault
      exact CompiledType.constructDefault_eq isDefault
  · obtain ⟨position, listed, placed⟩ := Option.bind_eq_some_iff.1 found
    exact lookup_indexProperties listed placed

/-- Field-based declarations about a class make an introspection of it that runs over fields. -/
theorem overFields_of_build {beanType : String} {ds : List Declaration}
    (built : ((Builder.start beanType).declareAll ds).build t = .ok i)
    (fieldBased : ∀ d ∈ ds, d.isFieldBased = true) :
    i.OverFields ∧ i.beanType = beanType ∧ i.generated.classes = t := by
  have based := ((OverFields.start beanType).declareAll fieldBased).build built
  obtain ⟨_, _, _, rfl⟩ := build_ok built
  exact ⟨based, beanType_declareAll _ ds, rfl⟩

end Builder

/-! ### Reads and writes of properties -/

namespace Action

theorem widen_apply (f : δ → ε) (x : Action δ α) (h : Heap) :
    widen f x h = ((x h).1.mapError f, (x h).2) := rfl

theorem widen_eq_ok_iff {f : δ → ε} {x : Action δ α} {h after : Heap} {a : α} :
    widen f x h = (.ok a, after) ↔ x h = (.ok a, after) := by
  rw [widen_apply]
  rcases x h with ⟨cause | found, mid⟩
  · exact ⟨nofun, nofun⟩
  · constructor <;> rintro ⟨⟩ <;> rfl

theorem widen_error {f : δ → ε} {x : Action δ α} {h after : Heap} {e : ε}
    (fails : widen f x h = (.error e, after)) : ∃ cause, x h = (.error cause, after) := by
  rw [widen_apply] at fails
  rcases ran : x h with ⟨cause | found, mid⟩
  · rw [ran] at fails
    cases fails
    exact ⟨cause, rfl⟩
  · rw [ran] at fails
    cases fails

theorem of_widen_error {f : δ → ε} (injective : Function.Injective f) {x : Action δ α}
    {h after : Heap} {cause : δ} (fails : widen f x h = (.error (f cause), after)) :
    x h = (.error cause, after) := by
  rw [widen_apply] at fails
  rcases ran : x h with ⟨other | a, mid⟩
  · rw [ran] at fails
    obtain ⟨same, rfl⟩ := Prod.ext_iff.1 fails
    rw [injective (Except.error.inj same)]
  · rw [ran] at fails
    cases fails

end Action

namespace Introspection

variable {i : Introspection CompiledType} {p : Property} {bean value : Value} {h after : Heap}

theorem checkBean_object {ref : Ref}
    (sub : i.generated.classes.isSubtype ref.cls i.beanType = true) :
    i.checkBean (.object ref) = .ok () := by
  refine if_pos ?_
  show i.generated.classes.isInstance (.object ref) (.named i.beanType) = true
  simp [ClassTable.isInstance, Value.isNull, Value.className, sub]

/-- A value that can be cast to the type of a property is one that the property takes. -/
theorem checkValue_of_cast {slot : Slot}
    (casts : i.generated.classes.cast value p.descriptor.type = .ok slot) :
    i.checkValue p value = .ok () :=
  if_pos (Bool.or_eq_true_iff.2 (ClassTable.isInstance_boxed_of_cast casts))

/-- A property whose read accessor reads a field is got by a checked read of the field. -/
theorem get_eq_read {f : FieldTarget} {index : UInt32} (isRead : p.read = some index)
    (reads : ∀ target arg, GeneratedType.dispatchOne i.generated index target arg =
      f.read i.generated.classes target) (bean : Value) :
    i.get p bean = (do
      Action.ofExcept (i.checkBean bean)
      Action.widen .dispatch (f.read i.generated.classes bean)) := by
  have readable : p.isWriteOnly = false := by simp [Property.isWriteOnly, isRead]
  simp [get, readable, isRead, reads]

/-- A property whose write accessor stores into a field is set by a checked write of the field. -/
theorem set_eq_write {f : FieldTarget} {index : UInt32} (writable : p.readOnly = false)
    (isWrite : p.write = some index)
    (writes : ∀ target arg, GeneratedType.dispatchOne i.generated index target arg =
      f.write i.generated.classes target arg) (bean value : Value) :
    i.set p bean value = (do
      Action.ofExcept (i.checkBean bean)
      Action.ofExcept (i.checkValue p value)
      discard (Action.widen .dispatch (f.write i.generated.classes bean value))) := by
  simp [set, writable, isWrite, writes]

namespace OverFields

theorem get_eq (based : i.OverFields) (member : p ∈ i.properties) (bean : Value) :
    i.get p bean = (do
      Action.ofExcept (i.checkBean bean)
      Action.widen .dispatch ((p.field i.beanType).read i.generated.classes bean)) := by
  obtain ⟨index, isRead, reads⟩ := based.read p member
  exact get_eq_read isRead reads bean

theorem get_quiet (based : i.OverFields) (member : p ∈ i.properties) (bean : Value) :
    (i.get p bean).Quiet := by
  rw [based.get_eq member]
  refine (Action.quiet_ofExcept _).bind fun _ => fun h => ?_
  have reads := (p.field i.beanType).read_heap (t := i.generated.classes) bean h
  exact (congrArg Prod.snd (Action.widen_apply Failure.dispatch _ h)).trans reads

/-- A property can be read where its field can. -/
theorem get_eq_ok_iff (based : i.OverFields) (member : p ∈ i.properties) :
    i.get p bean h = (.ok value, after) ↔
      (p.field i.beanType).read i.generated.classes bean h = (.ok value, after) := by
  rw [based.get_eq member]
  constructor
  · intro gets
    obtain ⟨_, _, reads⟩ := (Action.quiet_ofExcept _).exists_of_bind_apply gets
    exact Action.widen_eq_ok_iff.1 reads
  · intro reads
    obtain ⟨_, ref, slot, rfl, sub, _, _⟩ := FieldTarget.read_eq_ok_iff.1 reads
    rw [checkBean_object sub]
    exact Action.widen_eq_ok_iff.2 reads

theorem set_eq (based : i.OverFields) (member : p ∈ i.properties) (writable : p.readOnly = false)
    (bean value : Value) : i.set p bean value = (do
      Action.ofExcept (i.checkBean bean)
      Action.ofExcept (i.checkValue p value)
      discard (Action.widen .dispatch
        ((p.field i.beanType).write i.generated.classes bean value))) := by
  obtain ⟨index, isWrite⟩ : ∃ index, p.write = some index := by
    rw [based.readOnly p member, Option.isNone_eq_false_iff] at writable
    exact Option.isSome_iff_exists.1 writable
  exact set_eq_write writable isWrite (based.write p member index isWrite) bean value

/-- A property can be written where its field can. -/
theorem set_eq_ok_iff (based : i.OverFields) (member : p ∈ i.properties)
    (writable : p.readOnly = false) :
    i.set p bean value h = (.ok (), after) ↔
      (p.field i.beanType).write i.generated.classes bean value h = (.ok .null, after) := by
  rw [based.set_eq member writable]
  constructor
  · intro sets
    obtain ⟨_, _, rest⟩ := (Action.quiet_ofExcept _).exists_of_bind_apply sets
    obtain ⟨_, _, rest⟩ := (Action.quiet_ofExcept _).exists_of_bind_apply rest
    obtain ⟨result, mid, writes, done⟩ := Action.exists_of_bind_apply rest
    cases done
    have wrote := Action.widen_eq_ok_iff.1 writes
    rw [wrote, (FieldTarget.write_eq_ok_iff.1 wrote).1]
  · intro writes
    obtain ⟨_, ref, slot, rfl, sub, casts, _⟩ := FieldTarget.write_eq_ok_iff.1 writes
    rw [checkBean_object sub, checkValue_of_cast casts]
    exact Action.bind_apply_ok _ (Action.widen_eq_ok_iff.2 writes)

theorem set_error (based : i.OverFields) (member : p ∈ i.properties) {failure : Failure}
    (fails : i.set p bean value h = (.error failure, after)) : after = h := by
  by_cases readOnly : p.readOnly = true
  · rw [set, readOnly] at fails
    rcases (Action.quiet_ofExcept _).error_of_bind_apply fails with kept | ⟨_, refused⟩
    · exact kept
    · exact (congrArg Prod.snd refused).symm
  · rw [based.set_eq member (Bool.not_eq_true _ ▸ readOnly)] at fails
    rcases (Action.quiet_ofExcept _).error_of_bind_apply fails with kept | ⟨_, rest⟩
    · exact kept
    · rcases (Action.quiet_ofExcept _).error_of_bind_apply rest with kept | ⟨_, rest⟩
      · exact kept
      · rcases Action.cases_of_bind_apply_error rest with writes | ⟨_, mid, _, done⟩
        · obtain ⟨fault, writes⟩ := Action.widen_error writes
          exact FieldTarget.write_error writes
        · cases done

end OverFields

end Introspection

end BeanDispatch
