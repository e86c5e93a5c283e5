import BeanDispatch.Proofs.BeanEffects
import Mathlib.Data.List.Nodup

/-! Copies of beans. A bean whose property has a new value is the bean itself where the property can
be written, and otherwise a new object. The constructor of the copy gets the new value for the
property and what the bean has for every other argument; what it does not set is carried over, and
the names are distinct, so nothing is stored twice. A copy therefore differs from its bean in one
property, and the older objects never change. -/

namespace BeanDispatch

variable {t : ClassTable} {h after : Heap} {ref : Ref} {d : Descriptor} {value : Value}

/-! ### Contents -/

namespace Heap

/-- The object has the value in the field of the descriptor, as its type has it. -/
def Shows (h : Heap) (t : ClassTable) (ref : Ref) (d : Descriptor) (value : Value) : Prop :=
  ∃ slot, t.cast value d.type = .ok slot ∧ h.field? ref d.name = some slot

theorem Shows.of_field?_eq (shows : h.Shows t ref d value)
    (same : after.field? ref d.name = h.field? ref d.name) : after.Shows t ref d value := by
  obtain ⟨slot, casts, holds⟩ := shows
  exact ⟨slot, casts, same.trans holds⟩

theorem shows_of_store? {slot : Slot} (casts : t.cast value d.type = .ok slot)
    (done : h.store? ref d.name slot = some after) : after.Shows t ref d value := by
  refine ⟨slot, casts, ?_⟩
  rw [field?_store? done, if_pos ⟨rfl, rfl⟩]

end Heap

/-- The descriptor stands at the position, and no later one has its name. -/
structure LastNamed (ds : List Descriptor) (position : Nat) (d : Descriptor) : Prop where
  here : ds[position]? = some d
  last : ∀ e ∈ ds.drop (position + 1), e.name ≠ d.name

theorem lastNamed_of_nodup {ds : List Descriptor} {position : Nat}
    (distinct : (ds.map Descriptor.name).Nodup) (here : ds[position]? = some d) :
    LastNamed ds position d := by
  refine ⟨here, fun e later same => ?_⟩
  obtain ⟨offset, there⟩ := List.mem_iff_getElem?.1 later
  rw [List.getElem?_drop] at there
  have inside : position < (ds.map Descriptor.name).length := by
    rw [List.length_map]
    exact (List.getElem?_eq_some_iff.1 here).1
  have sameName : (ds.map Descriptor.name)[position]? =
      (ds.map Descriptor.name)[position + 1 + offset]? := by
    rw [List.getElem?_map, List.getElem?_map, here, there, Option.map_some, Option.map_some, same]
  have equal := (List.getElem?_inj inside distinct).1 sameName
  omega

/-- A constructor that succeeds has stored what was last given under each name. -/
theorem storeArguments_shows {arguments : List Descriptor} {values : List Value} {position : Nat}
    (stores : storeArguments t ref arguments values h = (.ok (), after))
    (lastNamed : LastNamed arguments position d) (given : values[position]? = some value) :
    after.Shows t ref d value := by
  induction arguments generalizing values h position with
  | nil => cases lastNamed.here
  | cons argument rest ih =>
    cases values with
    | nil => cases given
    | cons first values =>
      rcases storeArguments_cons t ref argument rest first values h with
        ⟨fault, fails⟩ | ⟨slot, stored, casts, done, goesOn⟩
      · rw [fails] at stores
        cases stores
      · rw [goesOn] at stores
        cases position with
        | zero =>
          -- the later arguments have other names
          cases lastNamed.here
          cases given
          have fills := storeArguments_filled t ref rest values stored
          rw [stores] at fills
          exact (Heap.shows_of_store? casts done).of_field?_eq
            (fills.field?_eq lastNamed.last ref)
        | succ position => exact ih stores ⟨lastNamed.here, lastNamed.last⟩ given

theorem storeArguments_ok {arguments : List Descriptor} {values : List Value}
    (distinct : (arguments.map Descriptor.name).Nodup)
    (stores : storeArguments t ref arguments values h = (.ok (), after)) :
    ∀ pair ∈ arguments.zip values, after.Shows t ref pair.1 pair.2 := by
  intro pair member
  obtain ⟨position, placed⟩ := List.mem_iff_getElem?.1 member
  obtain ⟨here, given⟩ := List.getElem?_zip_eq_some.1 placed
  exact storeArguments_shows stores (lastNamed_of_nodup distinct here) given

namespace Introspection

variable {i : Introspection CompiledType} {p : Property} {bean : Value}

namespace OverFields

/-- What an object shows for a property is what the property is read as. -/
theorem get_of_shows (based : i.OverFields) (member : p ∈ i.properties)
    (sub : i.generated.classes.isSubtype ref.cls i.beanType = true)
    (shows : h.Shows i.generated.classes ref p.descriptor value) :
    i.get p (.object ref) h = (.ok value, h) := by
  obtain ⟨slot, casts, holds⟩ := shows
  rw [based.get_eq_ok_iff member, FieldTarget.read_eq_ok_iff]
  exact ⟨rfl, ref, slot, rfl, sub, holds, FieldTarget.valueOf_of_cast casts⟩

theorem get_of_fields_eq (based : i.OverFields) (member : p ∈ i.properties)
    (gets : i.get p (.object ref) h = (.ok value, h)) (same : after.fields ref = h.fields ref) :
    i.get p (.object ref) after = (.ok value, after) := by
  rw [based.get_eq_ok_iff member, FieldTarget.read_eq_ok_iff] at gets ⊢
  obtain ⟨_, holder, slot, isObject, sub, holds, boxes⟩ := gets
  cases isObject
  refine ⟨rfl, ref, slot, rfl, sub, ?_, boxes⟩
  rw [Heap.field?, same]
  exact holds

theorem object_of_get (based : i.OverFields) (member : p ∈ i.properties)
    (gets : i.get p bean h = (.ok value, after)) :
    ∃ ref, bean = .object ref ∧ ref.id < h.objects.size ∧
      i.generated.classes.isSubtype ref.cls i.beanType = true := by
  obtain ⟨_, ref, slot, isObject, sub, holds, _⟩ :=
    FieldTarget.read_eq_ok_iff.1 ((based.get_eq_ok_iff member).1 gets)
  exact ⟨ref, isObject, Heap.lt_size_of_field? holds, sub⟩

theorem shows_of_set (based : i.OverFields) (member : p ∈ i.properties)
    (writable : p.readOnly = false)
    (sets : i.set p (.object ref) value h = (.ok (), after)) :
    after.Shows i.generated.classes ref p.descriptor value := by
  obtain ⟨_, holder, slot, isObject, _, casts, done⟩ :=
    FieldTarget.write_eq_ok_iff.1 ((based.set_eq_ok_iff member writable).1 sets)
  cases isObject
  exact Heap.shows_of_store? casts done

/-- The arguments of a copy are the new value and the values that the bean has. -/
theorem copyArguments_ok (based : i.OverFields) {arguments : List Descriptor} {args : List Value}
    (copies : i.copyArguments p bean value arguments h = (.ok args, after)) :
    ∀ d ∈ arguments, ∃ w, (d, w) ∈ arguments.zip args ∧
      i.copyArgument p bean value d h = (.ok w, h) := by
  induction arguments generalizing args after with
  | nil => exact fun d absent => absurd absent List.not_mem_nil
  | cons argument rest ih =>
    rw [copyArguments_cons] at copies
    obtain ⟨w, first, goesOn⟩ :=
      (based.copyArgument_quiet p bean value argument).exists_of_bind_apply copies
    obtain ⟨later, mid, others, done⟩ := Action.exists_of_bind_apply goesOn
    cases done
    intro d member
    rcases List.mem_cons.1 member with rfl | inRest
    · exact ⟨w, List.mem_cons_self, first⟩
    · obtain ⟨v, listed, source⟩ := ih others d inRest
      exact ⟨v, List.mem_cons_of_mem _ listed, source⟩

/-- Every property that is carried over shows what the bean has. -/
theorem carryOver_ok (based : i.OverFields) {properties : List Property} {source : Ref}
    (listed : ∀ p ∈ properties, p ∈ i.properties) (distinct : (properties.map Property.name).Nodup)
    (apart : source.id ≠ ref.id)
    (carries : i.carryOver (.object source) (.object ref) properties h = (.ok (), after)) :
    ∀ p ∈ properties, i.carries p = true → ∃ w, i.get p (.object source) h = (.ok w, h) ∧
      after.Shows i.generated.classes ref p.descriptor w := by
  induction properties generalizing h with
  | nil => exact fun p absent => absurd absent List.not_mem_nil
  | cons p rest ih =>
    obtain ⟨member, later⟩ := List.forall_mem_cons.1 listed
    obtain ⟨fresh, distinctRest⟩ := List.nodup_cons.1 distinct
    rw [based.carryOver_cons member] at carries
    by_cases carried : i.carries p = true
    · rw [if_pos carried] at carries
      have writable := writable_of_carries carried
      obtain ⟨w, gets, writes⟩ :=
        (based.get_quiet member (.object source)).exists_of_bind_apply carries
      obtain ⟨_, mid, sets, goesOn⟩ := Action.exists_of_bind_apply writes
      have same : h.fields source = mid.fields source := by
        have fills := based.set_filled member writable ref w h
        rw [sets] at fills
        exact (fills.frame apart).symm
      intro q inList isCarried
      rcases List.mem_cons.1 inList with rfl | inRest
      · refine ⟨w, gets, (based.shows_of_set member writable sets).of_field?_eq ?_⟩
        -- the later properties have other names
        have fills := based.carryOver_filled later (.object source) ref mid
        rw [goesOn] at fills
        refine fills.field?_eq (fun d carriedLater sameName => fresh ?_) ref
        obtain ⟨r, kept, rfl⟩ := List.mem_map.1 carriedLater
        exact List.mem_map.2 ⟨r, (List.mem_filter.1 kept).1, sameName⟩
      · obtain ⟨v, getsLater, shows⟩ := ih later distinctRest goesOn q inRest isCarried
        exact ⟨v, based.get_of_fields_eq (later q inRest) getsLater same, shows⟩
    · rw [if_neg carried] at carries
      intro q inList isCarried
      rcases List.mem_cons.1 inList with rfl | inRest
      · exact absurd isCarried carried
      · exact ih later distinctRest carries q inRest isCarried

theorem instantiateWith_ok (based : i.OverFields) {options : InstantiateOptions}
    {args : List Value} (some : args ≠ [])
    (makes : i.instantiateWith options args h = (.ok bean, after)) :
    bean = .object (h.next i.beanType) ∧
      storeArguments i.generated.classes (h.next i.beanType) i.constructorArguments args
        (i.generated.classes.withNew i.beanType h) = (.ok (), after) := by
  rcases based.instantiateWith_cases options args h with
    ⟨failure, refused⟩ | ⟨arguments, which, runs⟩
  · rw [refused] at makes
    cases makes
  · rcases which with ⟨none, _⟩ | ⟨_, rfl⟩
    · exact absurd none some
    · rw [runs, Action.widen_eq_ok_iff] at makes
      exact fieldConstructor_ok makes

end OverFields

/-! ### Copies -/

/-- The next object is a copy of a bean with another value for a property. It shows the value, it
has every other property that a copy can have as the bean has it, and the rest is as in a new
object. -/
structure IsCopy (i : Introspection CompiledType) (p : Property) (bean value : Value)
    (before after : Heap) : Prop where
  changed : after.Shows i.generated.classes (before.next i.beanType) p.descriptor value
  carried : ∀ q ∈ i.properties, q ≠ p → i.constructs q.name = true ∨ q.readOnly = false →
    ∃ w, i.get q bean before = (.ok w, before) ∧
      i.get q (.object (before.next i.beanType)) after = (.ok w, after)
  initial : ∀ name, i.constructs name = false →
    (∀ q ∈ i.properties, q.name = name → q.readOnly = true) →
    after.field? (before.next i.beanType) name =
      (i.generated.classes.layout i.beanType).get? name
  names : (after.fields (before.next i.beanType)).keys =
    (i.generated.classes.layout i.beanType).keys
  size : after.objects.size = before.objects.size + 1
  others : ∀ ref, ref.id < before.objects.size → after.fields ref = before.fields ref

theorem constructs_iff {name : String} :
    i.constructs name = true ↔ ∃ d ∈ i.constructorArguments, d.name = name := by
  simp [constructs]

/-- The constructor arguments have names of their own and the types of the properties that they are
named after. -/
structure ArgumentsFit (i : Introspection CompiledType) : Prop where
  distinct : (i.properties.map Property.name).Nodup
  distinctArguments : (i.constructorArguments.map Descriptor.name).Nodup
  agree : ∀ d ∈ i.constructorArguments, ∀ p ∈ i.properties, d.name = p.name →
    d.type = p.descriptor.type

namespace ArgumentsFit

variable {q : Property}

theorem eq_of_name_eq (fit : i.ArgumentsFit) (first : p ∈ i.properties)
    (second : q ∈ i.properties) (same : p.name = q.name) : p = q :=
  List.inj_on_of_nodup_map fit.distinct first second same

/-- What a constructor stores for an argument is what the property of its name shows. -/
theorem shows (fit : i.ArgumentsFit) (listed : d ∈ i.constructorArguments)
    (member : p ∈ i.properties) (named : d.name = p.name) (shows : h.Shows t ref d value) :
    h.Shows t ref p.descriptor value := by
  obtain ⟨slot, casts, holds⟩ := shows
  rw [fit.agree d listed p member named] at casts
  rw [named] at holds
  exact ⟨slot, casts, holds⟩

end ArgumentsFit

namespace OverFields

/-- For the argument of another property a copy gets what the bean has. -/
theorem get_of_copyArgument (based : i.OverFields) (fit : i.ArgumentsFit) {q : Property}
    (first : p ∈ i.properties) (second : q ∈ i.properties) (other : q ≠ p)
    (named : d.name = q.name) {w : Value}
    (source : i.copyArgument p bean value d h = (.ok w, h)) : i.get q bean h = (.ok w, h) := by
  have differs : d.name ≠ p.name := fun same =>
    other (fit.eq_of_name_eq second first (named.symm.trans same))
  rw [copyArgument, if_neg differs] at source
  cases found : i.property? d.name with
  | none =>
    rw [found] at source
    cases source
  | some r =>
    rw [found] at source
    obtain ⟨third, same⟩ := based.lookup d.name r found
    rwa [fit.eq_of_name_eq third second (same.trans named)] at source

end OverFields

/-- The steps of a copy that came out: the arguments were collected, the constructor stored them
into the next object, and what it does not set was carried over. -/
structure Copying (i : Introspection CompiledType) (p : Property) (source : Ref) (value : Value)
    (args : List Value) (before made after : Heap) : Prop where
  collects : i.copyArguments p (.object source) value i.constructorArguments before =
    (.ok args, before)
  stores : storeArguments i.generated.classes (before.next i.beanType) i.constructorArguments args
    (i.generated.classes.withNew i.beanType before) = (.ok (), made)
  carriesOver : i.carryOver (.object source) (.object (before.next i.beanType)) i.properties made =
    (.ok (), after)

theorem OverFields.copying_of_copyWith (based : i.OverFields) (readOnly : p.readOnly = true)
    (constructs : i.constructs p.name = true) {source : Ref} {copy : Value}
    (copies : i.copyWith p (.object source) value h = (.ok copy, after)) :
    copy = .object (h.next i.beanType) ∧
      ∃ args made, i.Copying p source value args h made after := by
  rw [copyWith_constructs readOnly constructs] at copies
  obtain ⟨args, collects, rest⟩ :=
    (based.copyArguments_quiet p (.object source) value _).exists_of_bind_apply copies
  have some : args ≠ [] := by
    obtain ⟨d, listed, _⟩ := constructs_iff.1 constructs
    obtain ⟨w, inZip, _⟩ := based.copyArguments_ok collects d listed
    rintro rfl
    rw [List.zip_nil_right] at inZip
    cases inZip
  obtain ⟨_, made, makes, rest⟩ := Action.exists_of_bind_apply rest
  obtain ⟨rfl, stores⟩ := based.instantiateWith_ok some makes
  obtain ⟨_, _, carriesOver, done⟩ := Action.exists_of_bind_apply rest
  cases done
  exact ⟨rfl, args, made, collects, stores, carriesOver⟩

namespace Copying

variable {source : Ref} {args : List Value} {made : Heap} {q : Property}

/-- The constructor stores into the new object alone. -/
theorem constructor_filled (run : i.Copying p source value args h made after) :
    Filled i.generated.classes i.constructorArguments (h.next i.beanType)
      (i.generated.classes.withNew i.beanType h) made := by
  have fills := storeArguments_filled i.generated.classes (h.next i.beanType)
    i.constructorArguments args (i.generated.classes.withNew i.beanType h)
  rwa [run.stores] at fills

/-- Carrying over stores into the new object alone, and only what is carried. -/
theorem carryOver_filled (run : i.Copying p source value args h made after)
    (based : i.OverFields) :
    Filled i.generated.classes ((i.properties.filter i.carries).map Property.descriptor)
      (h.next i.beanType) made after := by
  have fills := based.carryOver_filled (fun _ => id) (.object source) (h.next i.beanType) made
  rwa [run.carriesOver] at fills

theorem shows (run : i.Copying p source value args h made after) (based : i.OverFields)
    (fit : i.ArgumentsFit) (listed : d ∈ i.constructorArguments) : ∃ w,
      i.copyArgument p (.object source) value d h = (.ok w, h) ∧
        after.Shows i.generated.classes (h.next i.beanType) d w := by
  obtain ⟨w, inZip, collected⟩ := based.copyArguments_ok run.collects d listed
  have stored := storeArguments_ok fit.distinctArguments run.stores (d, w) inZip
  refine ⟨w, collected, stored.of_field?_eq ?_⟩
  -- what is carried over is no argument of the constructor
  refine (run.carryOver_filled based).field?_eq (fun e carried same => ?_) _
  obtain ⟨r, kept, rfl⟩ := List.mem_map.1 carried
  have notSet : i.constructs r.name = false := (carries_iff.1 (List.mem_filter.1 kept).2).1
  have isSet : i.constructs r.name = true := constructs_iff.2 ⟨d, listed, same.symm⟩
  rw [isSet] at notSet
  cases notSet

theorem changed (run : i.Copying p source value args h made after) (based : i.OverFields)
    (fit : i.ArgumentsFit) (member : p ∈ i.properties) (constructs : i.constructs p.name = true) :
    after.Shows i.generated.classes (h.next i.beanType) p.descriptor value := by
  obtain ⟨d, listed, named⟩ := constructs_iff.1 constructs
  obtain ⟨w, collected, shows⟩ := run.shows based fit listed
  rw [copyArgument, if_pos named] at collected
  cases collected
  exact fit.shows listed member named shows

/-- Every other property that the constructor sets or that can be written is read from the new
object as it is from the bean. -/
theorem carried (run : i.Copying p source value args h made after) (based : i.OverFields)
    (fit : i.ArgumentsFit) (old : source.id < h.objects.size) (first : p ∈ i.properties)
    (second : q ∈ i.properties) (other : q ≠ p)
    (which : i.constructs q.name = true ∨ q.readOnly = false) :
    ∃ w, i.get q (.object source) h = (.ok w, h) ∧
      i.get q (.object (h.next i.beanType)) after = (.ok w, after) := by
  have sub : i.generated.classes.isSubtype (h.next i.beanType).cls i.beanType = true :=
    i.generated.classes.isSubtype_refl i.beanType
  cases isSet : i.constructs q.name with
  | true =>
    obtain ⟨d, listed, named⟩ := constructs_iff.1 isSet
    obtain ⟨w, collected, shows⟩ := run.shows based fit listed
    have gets := based.get_of_copyArgument fit first second other named collected
    exact ⟨w, gets, based.get_of_shows second sub (fit.shows listed second named shows)⟩
  | false =>
    rw [isSet] at which
    have isCarried : i.carries q = true :=
      carries_iff.2 ⟨isSet, which.resolve_left Bool.false_ne_true⟩
    obtain ⟨w, gets, shows⟩ := based.carryOver_ok (fun _ => id) fit.distinct (Nat.ne_of_lt old)
      run.carriesOver q second isCarried
    have kept : h.fields source = made.fields source :=
      (run.constructor_filled.fields_old old).symm
    exact ⟨w, based.get_of_fields_eq second gets kept, based.get_of_shows second sub shows⟩

/-- A field that neither the constructor sets nor a property can write is as in a new object. -/
theorem initial (run : i.Copying p source value args h made after) (based : i.OverFields)
    {name : String} (notSet : i.constructs name = false)
    (fixed : ∀ q ∈ i.properties, q.name = name → q.readOnly = true) :
    after.field? (h.next i.beanType) name =
      (i.generated.classes.layout i.beanType).get? name := by
  rw [(run.carryOver_filled based).field?_eq, run.constructor_filled.field?_eq, Heap.field?,
    ClassTable.fields_withNew_next]
  · intro d listed same
    rw [constructs_iff.2 ⟨d, listed, same⟩] at notSet
    cases notSet
  · intro d carried same
    obtain ⟨q, kept, rfl⟩ := List.mem_map.1 carried
    obtain ⟨member, isCarried⟩ := List.mem_filter.1 kept
    have readOnly := fixed q member same
    rw [writable_of_carries isCarried] at readOnly
    cases readOnly

end Copying

theorem OverFields.copyWith_isCopy (based : i.OverFields) (fit : i.ArgumentsFit)
    (member : p ∈ i.properties) (readOnly : p.readOnly = true)
    (constructs : i.constructs p.name = true) {source : Ref} (old : source.id < h.objects.size)
    {copy : Value} (copies : i.copyWith p (.object source) value h = (.ok copy, after)) :
    copy = .object (h.next i.beanType) ∧ i.IsCopy p (.object source) value h after := by
  obtain ⟨rfl, args, made, run⟩ := based.copying_of_copyWith readOnly constructs copies
  have outcome := based.copyWith_outcome member (.object source) value h
  rw [copies] at outcome
  cases outcome with
  | kept given =>
    cases given
    exact absurd old (Nat.lt_irrefl _)
  | made fills =>
    refine ⟨rfl, run.changed based fit member constructs,
      fun q => run.carried based fit old member, fun name => run.initial based, ?_, ?_,
      fun ref => fills.fields_old⟩
    · rw [fills.keys_eq, ClassTable.fields_withNew_next]
    · rw [fills.size_eq, ClassTable.size_withNew]

/-- A bean with a value for a property. If it has the value, nothing happens; if the property can be
written, it is; and otherwise the bean is copied, if its constructor takes the property. An
operation that fails leaves every object as it was. -/
theorem withValue_updates {t : ClassTable} {beanType : String} {ds : List Declaration}
    (built : ((Builder.start beanType).declareAll ds).build t = .ok i)
    (fieldBased : ∀ d ∈ ds, d.isFieldBased = true) (fit : i.ArgumentsFit)
    (member : p ∈ i.properties) {current : Value} (gets : (i.get p bean h).1 = .ok current)
    (value : Value) :
    let outcome := i.withValue p bean value h
    (current.same value = true → outcome = (.ok bean, h)) ∧
    (current.same value = false → p.readOnly = false →
      outcome = (i.set p bean value >>= fun _ => pure bean) h) ∧
    (current.same value = false → p.readOnly = true → i.constructs p.name = true →
      ∀ copy after, outcome = (.ok copy, after) →
        copy = .object ⟨h.objects.size, beanType⟩ ∧ i.IsCopy p bean value h after) ∧
    (current.same value = false → p.readOnly = true → i.constructs p.name = false →
      outcome = (.error (.unsupported (.noCopy beanType p.descriptor.type)), h)) ∧
    ∀ failure after, outcome = (.error failure, after) →
      ∀ ref, ref.id < h.objects.size → after.fields ref = h.fields ref := by
  intro outcome
  obtain ⟨based, isType, _⟩ := Builder.overFields_of_build built fieldBased
  have reads : i.get p bean h = (.ok current, h) :=
    Prod.ext gets (based.get_quiet member bean h)
  obtain ⟨source, rfl, old, _⟩ := based.object_of_get member reads
  have decides : outcome =
      (if current.same value then pure (.object source)
        else i.copyWith p (.object source) value : Action Failure Value) h := by
    show i.withValue p (.object source) value h = _
    rw [based.withValue_eq member, Action.bind_apply_ok _ reads]
  have goesOn (differs : current.same value = false) :
      outcome = i.copyWith p (.object source) value h := by
    rw [decides, differs]
    rfl
  refine ⟨fun same => ?_, fun differs writable => ?_,
    fun differs readOnly constructs copy after ran => ?_, fun differs readOnly fixed => ?_,
    fun failure after fails => ?_⟩
  · rw [decides, same]
    rfl
  · rw [goesOn differs, copyWith_writable writable]
  · rw [goesOn differs] at ran
    rw [← isType]
    exact based.copyWith_isCopy fit member readOnly constructs old ran
  · rw [goesOn differs, copyWith_fixed readOnly fixed, isType]
    rfl
  · have ends := based.withValue_outcome member (.object source) value h
    change outcome = (.error failure, after) at fails
    change i.BeanOutcome _ _ outcome at ends
    rw [fails] at ends
    exact ends.error_frame

end Introspection

namespace Account

def owner : Descriptor := .mk "owner" (.named Builtin.string) [] false OrderedMap.empty

def balance : Descriptor := .mk "balance" (.primitive .int) [] false OrderedMap.empty

def declarations : List Declaration := [.readOnlyField owner, .field balance, .constructor [owner]]

def classes : ClassTable where
  defs :=
    { ClassDef.ofClass "Account" with
      fields := [⟨"owner", .null⟩, ⟨"balance", .int 0⟩] } :: ClassTable.builtin.defs

def builder : Builder := (Builder.start "Account").declareAll declarations

def routines : RoutineSet := (builder.catalog.emit {}).toOption.getD ⟨"", false, none, none, none⟩

def introspection : Introspection CompiledType := builder.finish classes routines

def ownerProperty : Property := ⟨owner, some 0, none, none, true, true⟩

def balanceProperty : Property := ⟨balance, some 1, some 2, none, false, true⟩

def account : Value := .object ⟨0, "Account"⟩

def fieldsOf (owner : String) : OrderedMap Slot :=
  OrderedMap.ofList [("owner", .ref (.str owner)), ("balance", .int 7)]

/-- The account of another owner is a copy with the same balance. -/
theorem withValue_updates_account :
    introspection.withValue ownerProperty account (.str "Grace") ⟨#[fieldsOf "Ada"]⟩ =
        (.ok (.object ⟨1, "Account"⟩), ⟨#[fieldsOf "Ada", fieldsOf "Grace"]⟩) ∧
      introspection.IsCopy ownerProperty account (.str "Grace") ⟨#[fieldsOf "Ada"]⟩
        ⟨#[fieldsOf "Ada", fieldsOf "Grace"]⟩ := by
  have built : ((Builder.start "Account").declareAll declarations).build classes =
      .ok introspection := rfl
  have fieldBased : ∀ d ∈ declarations, d.isFieldBased = true := by
    simp [declarations, Declaration.isFieldBased]
  have fit : introspection.ArgumentsFit := ⟨by decide, by decide, by decide⟩
  have member : ownerProperty ∈ introspection.properties := List.mem_cons_self
  have gets : (introspection.get ownerProperty account ⟨#[fieldsOf "Ada"]⟩).1 =
      .ok (.str "Ada") := rfl
  have ran : introspection.withValue ownerProperty account (.str "Grace") ⟨#[fieldsOf "Ada"]⟩ =
      (.ok (.object ⟨1, "Account"⟩), ⟨#[fieldsOf "Ada", fieldsOf "Grace"]⟩) := rfl
  obtain ⟨_, _, copies, _⟩ :=
    Introspection.withValue_updates built fieldBased fit member gets (.str "Grace")
  exact ⟨ran, (copies rfl rfl rfl _ _ ran).2⟩

end Account

end BeanDispatch
