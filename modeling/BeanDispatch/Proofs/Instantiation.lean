import BeanDispatch.Proofs.ConstructorHistory
import BeanDispatch.Proofs.ValueChecks

/-! Beans that are made from values. A constructor that stores its arguments makes one object with
the fields of its class and fills them one after the other, so the last of several arguments with
one name decides what the field of that name holds, and a field that no argument names keeps its
first content. `MadeFrom` collects what holds of such an object; a property that stands for a filled
field is read as the value that was passed. If the constructor fails half-way, only the object that
it was filling is left behind. -/

namespace BeanDispatch

/-! ### A single constructor -/

namespace Declaration

/-- Whether the declaration is one of a constructor, with arguments or without. -/
def isConstructor : Declaration → Bool
  | .constructor _ | .constructorWith _ _ | .defaultConstructor => true
  | _ => false

variable {beanType : String} {ds : List Declaration} {d : Declaration}

/-- What only constructors contribute comes from the only constructor. -/
theorem getLast?_of_only {α : Type} {f : Declaration → Option α}
    (others : ∀ d : Declaration, d.isConstructor = false → f d = none)
    (only : ds.filter isConstructor = [d]) : (ds.filterMap f).getLast? = f d := by
  have skips : ds.filterMap f = (ds.filter isConstructor).filterMap f := by
    rw [List.filterMap_filter]
    refine List.filterMap_congr fun d _ => ?_
    cases isOne : d.isConstructor with
    | true => rfl
    | false => exact others d isOne
  rw [skips, only, List.filterMap_cons, List.filterMap_nil]
  cases f d <;> rfl

theorem lastConstructor?_of_only (only : ds.filter isConstructor = [d]) :
    lastConstructor? beanType ds = d.constructor? beanType := by
  refine getLast?_of_only (fun d other => ?_) only
  cases d <;> first | rfl | cases other

theorem lastDefault?_of_only (only : ds.filter isConstructor = [d]) :
    lastDefault? beanType ds = d.defaultConstructor? beanType := by
  refine getLast?_of_only (fun d other => ?_) only
  cases d <;> first | rfl | cases other

end Declaration

namespace Builder

variable {t : ClassTable} {i : Introspection CompiledType} {beanType : String}
  {ds : List Declaration} {arguments : List Descriptor} {options : InstantiateOptions}
  {args : List Value}

theorem arguments_of_only (only : ds.filter Declaration.isConstructor = [.constructor arguments])
    (built : ((Builder.start beanType).declareAll ds).build t = .ok i) :
    i.constructorArguments = arguments := by
  obtain ⟨b, builds, installs, rfl⟩ := installs_of_build built
  rw [constructorArguments_of_build builds, installs.arguments,
    Declaration.lastConstructor?_of_only only]
  rfl

/-- Whatever is not refused is stored by the only constructor, also if it has no arguments. -/
theorem instantiateWith_of_only
    (only : ds.filter Declaration.isConstructor = [.constructor arguments])
    (built : ((Builder.start beanType).declareAll ds).build t = .ok i)
    (accepted : i.refusal? options args = none) :
    i.instantiateWith options args =
      Action.widen .dispatch (fieldConstructor beanType arguments t args) := by
  have counted := Introspection.length_of_accepted accepted
  rw [arguments_of_only only built] at counted
  obtain ⟨b, builds, installs, rfl⟩ := installs_of_build built
  by_cases given : args = []
  · obtain rfl : arguments = [] := List.eq_nil_of_length_eq_zero (by rw [← counted, given]; rfl)
    rw [given, instantiateWith_nil builds, installs.default, Declaration.lastDefault?_of_only only]
    rfl
  · obtain ⟨body, last, runs⟩ := installs.exists_body builds given accepted
    rw [Declaration.lastConstructor?_of_only only] at last
    cases last
    exact runs

theorem instantiateWith_of_only_refused
    (only : ds.filter Declaration.isConstructor = [.constructor arguments])
    (built : ((Builder.start beanType).declareAll ds).build t = .ok i)
    {problem : Uninstantiable} (refused : i.refusal? options args = some problem) :
    ∃ reason, i.instantiateWith options args = throw (.instantiation reason) := by
  by_cases given : args = []
  · -- without values only the number of arguments can be the problem
    have some : arguments ≠ [] := by
      intro none
      rw [given, Introspection.refusal?, arguments_of_only only built, none] at refused
      cases refused
    obtain ⟨b, builds, installs, rfl⟩ := installs_of_build built
    refine ⟨.noDefaultConstructor, ?_⟩
    rw [given, instantiateWith_nil builds, installs.default, Declaration.lastDefault?_of_only only]
    cases arguments with
    | nil => exact absurd rfl some
    | cons argument rest => rfl
  · exact ⟨problem, Introspection.instantiateWith_refused given refused⟩

end Builder

/-! ### Filled objects -/

variable {t : ClassTable} {cls beanType : String} {arguments : List Descriptor} {args : List Value}
  {h before after : Heap} {ref : Ref} {bean value : Value}

/-- The next object has been made from the values of some arguments. It has the fields of a new
object of its class, in their order; the field of an argument holds what was last given under its
name, as the type of that argument has it, and the rest is as in a new object. -/
structure MadeFrom (t : ClassTable) (cls : String) (arguments : List Descriptor)
    (args : List Value) (before after : Heap) : Prop where
  counted : args.length = arguments.length
  made : t.newInstance cls before = (.ok (before.next cls), t.withNew cls before)
  names : (after.fields (before.next cls)).keys = (t.layout cls).keys
  filled : ∀ position d value, LastNamed arguments position d → args[position]? = some value →
    after.Shows t (before.next cls) d value
  initial : ∀ name, (∀ d ∈ arguments, d.name ≠ name) →
    after.field? (before.next cls) name = (t.layout cls).get? name
  size : after.objects.size = before.objects.size + 1
  others : ∀ ref, ref.id < before.objects.size → after.fields ref = before.fields ref

theorem exists_storeArguments_iff :
    (∃ after, storeArguments t ref arguments args h = (.ok (), after)) ↔
      ∀ pair ∈ arguments.zip args, (∃ slot, t.cast pair.2 pair.1.type = .ok slot) ∧
        pair.1.name ∈ (h.fields ref).keys := by
  induction arguments generalizing args h with
  | nil => exact ⟨fun _ pair absent => absurd absent List.not_mem_nil, fun _ => ⟨h, rfl⟩⟩
  | cons argument arguments ih =>
    cases args with
    | nil => exact ⟨fun _ pair absent => absurd absent List.not_mem_nil, fun _ => ⟨h, rfl⟩⟩
    | cons value values =>
      rw [List.zip_cons_cons, List.forall_mem_cons, storeArguments]
      cases casts : t.cast value argument.type with
      | error fault =>
        rw [Action.ofExcept_error, Action.throw_bind]
        constructor
        · rintro ⟨after, stores⟩
          cases stores
        · rintro ⟨⟨⟨slot, isSlot⟩, _⟩, _⟩
          cases isSlot
      | ok slot =>
        rw [Action.ofExcept_ok, pure_bind,
          Action.bind_apply_ok _ (Action.store_apply ref argument.name slot h)]
        have isField : argument.name ∈ (h.fields ref).keys ↔
            ∃ stored, h.store? ref argument.name slot = some stored :=
          ((h.fields ref).mem_keys_iff argument.name).trans Heap.exists_store?_iff.symm
        rw [isField]
        cases done : h.store? ref argument.name slot with
        | none =>
          constructor
          · rintro ⟨after, stores⟩
            cases stores
          · rintro ⟨⟨_, stored, absurdly⟩, _⟩
            cases absurdly
        | some stored =>
          have later := @ih values stored
          rw [Heap.keys_store? done] at later
          exact later.trans ⟨fun rest => ⟨⟨⟨slot, rfl⟩, stored, rfl⟩, rest⟩, And.right⟩

theorem madeFrom_of_fieldConstructor (counted : args.length = arguments.length)
    (makes : fieldConstructor cls arguments t args h = (.ok bean, after)) :
    bean = .object (h.next cls) ∧ MadeFrom t cls arguments args h after := by
  obtain ⟨rfl, stores⟩ := fieldConstructor_ok makes
  have fills := storeArguments_filled t (h.next cls) arguments args (t.withNew cls h)
  rw [stores] at fills
  have keys := fills.keys_eq (h.next cls)
  rw [ClassTable.fields_withNew_next] at keys
  refine ⟨rfl, counted, ?_, keys, fun position d value => storeArguments_shows stores,
    fun name unnamed => ?_, ?_, fun ref => fills.fields_old⟩
  · rcases t.newInstance_outcome cls h with ⟨fault, refused⟩ | made
    · rw [fieldConstructor, Action.bind_apply_error _ refused] at makes
      cases makes
    · exact made
  · rw [fills.field?_eq unnamed, Heap.field?, ClassTable.fields_withNew_next]
  · rw [fills.size_eq, ClassTable.size_withNew]

/-- A constructor succeeds if the class has instances and its arguments can be stored. -/
theorem exists_fieldConstructor_iff :
    (∃ bean after, fieldConstructor cls arguments t args h = (.ok bean, after)) ↔
      (∃ ref made, t.newInstance cls h = (.ok ref, made)) ∧
        ∀ pair ∈ arguments.zip args, (∃ slot, t.cast pair.2 pair.1.type = .ok slot) ∧
          pair.1.name ∈ (t.layout cls).keys := by
  rw [← t.fields_withNew_next cls h, ← exists_storeArguments_iff]
  constructor
  · rintro ⟨bean, after, makes⟩
    obtain ⟨ref, made, isNew, _⟩ := Action.exists_of_bind_apply makes
    exact ⟨⟨ref, made, isNew⟩, after, (fieldConstructor_ok makes).2⟩
  · rintro ⟨⟨ref, made, isNew⟩, after, stores⟩
    rcases t.newInstance_outcome cls h with ⟨fault, refused⟩ | makes
    · rw [refused] at isNew
      cases isNew
    · refine ⟨.object (h.next cls), after, ?_⟩
      rw [fieldConstructor, Action.bind_apply_ok _ makes]
      exact Action.bind_apply_ok _ stores

theorem fieldConstructor_error {fault : Fault}
    (fails : fieldConstructor cls arguments t args h = (.error fault, after))
    (old : ref.id < h.objects.size) : after.fields ref = h.fields ref := by
  rcases fieldConstructor_outcome cls arguments t args h with ⟨other, refused⟩ | made
  · rw [refused] at fails
    cases fails
    rfl
  · rw [made] at fails
    have fills := storeArguments_filled t (h.next cls) arguments args (t.withNew cls h)
    rcases Action.cases_of_bind_apply_error fails with stops | ⟨_, _, _, done⟩
    · rw [stops] at fills
      exact fills.fields_old old
    · cases done

/-! ### Reading -/

/-- The property stands where a field with this descriptor is declared, read-only or not. -/
def Introspection.IsReadable {γ : Type} (i : Introspection γ) (ds : List Declaration)
    (p : Property) (d : Descriptor) : Prop :=
  ∃ declaration declared,
    (declaration = Declaration.field d ∨ declaration = Declaration.readOnlyField d) ∧
    declaration.property? i.beanType = some declared ∧
    (p, declared) ∈ i.properties.zip (ds.filterMap (Declaration.property? i.beanType))

namespace Builder

variable {b : Builder} {ds : List Declaration} {i : Introspection CompiledType} {p : Property}
  {d : Descriptor}

/-- A property that is declared as a field is read as what a bean shows there. -/
theorem get_of_isReadable (recorded : b.Recorded ds []) (built : b.build t = .ok i)
    (field : i.IsReadable ds p d) (sub : t.isSubtype ref.cls i.beanType = true)
    (shows : h.Shows t ref d value) : i.get p (.object ref) h = (.ok value, h) := by
  obtain ⟨declaration, declared, which, declares, paired⟩ := field
  have stands := recorded.standsFor built paired
  have isGet : declared.read = some (.fieldGet ⟨i.beanType, d.name, d.type⟩) := by
    rcases which with rfl | rfl <;> cases declares <;> rfl
  obtain ⟨index, isRead, recordedRead⟩ := eq_some_of_rel (isGet ▸ stands.read)
  obtain ⟨_, routines, emitted, rfl⟩ := build_ok built
  have reads := (RoutineSet.dispatchSingle_offer emitted (recordedRead.mem_select rfl)).2 t
  obtain ⟨slot, casts, holds⟩ := shows
  rw [Introspection.get_eq_read isRead reads, Introspection.checkBean_object sub]
  refine Action.widen_eq_ok_iff.2
    (FieldTarget.read_eq_ok_iff.2 ⟨rfl, ref, slot, rfl, sub, holds, ?_⟩)
  exact FieldTarget.valueOf_of_cast casts

variable {beanType : String} {arguments : List Descriptor} {args : List Value}

/-- A bean that is made from values is a new object that holds each of them in the field of its
argument, or what a later argument of the same name was given, and in the other fields what a new
object holds; the property of a field is read as the value that was passed for it. Neither this nor
a failure changes an object that was there before. It succeeds if the values are not refused, the
class has instances with all the fields, and every value can be cast, also those that are stored
over. -/
theorem instantiateWith_fills
    (only : ds.filter Declaration.isConstructor = [.constructor arguments])
    (built : ((Builder.start beanType).declareAll ds).build t = .ok i)
    (options : InstantiateOptions) (args : List Value) (h : Heap) :
    (∀ bean after, i.instantiateWith options args h = (.ok bean, after) →
      bean = .object (h.next beanType) ∧ MadeFrom t beanType arguments args h after ∧
      ∀ p d, i.IsReadable ds p d → ∀ position e value, LastNamed arguments position e →
        e.name = d.name → e.type = d.type → args[position]? = some value →
        i.get p bean after = (.ok value, after)) ∧
    (∀ failure after, i.instantiateWith options args h = (.error failure, after) →
      ∀ ref, ref.id < h.objects.size → after.fields ref = h.fields ref) ∧
    ((∃ bean after, i.instantiateWith options args h = (.ok bean, after)) ↔
      i.refusal? options args = none ∧
      (∃ ref made, t.newInstance beanType h = (.ok ref, made)) ∧
      ∀ pair ∈ arguments.zip args, (∃ slot, t.cast pair.2 pair.1.type = .ok slot) ∧
        pair.1.name ∈ (t.layout beanType).keys) := by
  cases accepted : i.refusal? options args with
  | some problem =>
    obtain ⟨reason, refused⟩ := instantiateWith_of_only_refused only built accepted
    rw [refused]
    refine ⟨nofun, fun failure after fails ref _ => ?_, nofun, fun succeeds => ?_⟩
    · cases fails
      rfl
    · cases succeeds.1
  | none =>
    rw [instantiateWith_of_only only built accepted]
    have counted := Introspection.length_of_accepted accepted
    rw [arguments_of_only only built] at counted
    refine ⟨fun bean after makes => ?_, fun failure after fails ref old => ?_, ?_⟩
    · obtain ⟨rfl, madeFrom⟩ :=
        madeFrom_of_fieldConstructor counted (Action.widen_eq_ok_iff.1 makes)
      refine ⟨rfl, madeFrom, fun p d field position e value lastNamed name type given => ?_⟩
      have sameType : i.beanType = beanType := by
        obtain ⟨b, builds, _, isType⟩ := installs_of_build built
        obtain ⟨_, routines, _, rfl⟩ := build_ok builds
        exact isType
      have sub : t.isSubtype (h.next beanType).cls i.beanType = true := by
        rw [sameType]
        exact t.isSubtype_refl beanType
      refine get_of_isReadable (recorded_of_declared rfl) built field sub ?_
      obtain ⟨slot, casts, holds⟩ := madeFrom.filled position e value lastNamed given
      rw [type] at casts
      rw [name] at holds
      exact ⟨slot, casts, holds⟩
    · obtain ⟨fault, stops⟩ := Action.widen_error fails
      exact fieldConstructor_error stops old
    · rw [← exists_fieldConstructor_iff]
      simp only [Action.widen_eq_ok_iff, true_and]

end Builder

namespace Account

/-- An account is opened with a balance, which can be adjusted behind the owner. -/
def openings : List Declaration :=
  [.readOnlyField owner, .field balance, .constructor [balance, owner, balance]]

def opened : Introspection CompiledType :=
  let b := (Builder.start "Account").declareAll openings
  b.finish classes ((b.catalog.emit {}).toOption.getD ⟨"", false, none, none, none⟩)

def opening : List Value := [.int 1, .str "Ada", .int 9]

/-- The balance is the adjusted one. -/
theorem instantiateWith_fills_opened :
    opened.instantiateWith {} opening ⟨#[]⟩ =
        (.ok account, ⟨#[OrderedMap.ofList [("owner", .ref (.str "Ada")), ("balance", .int 9)]]⟩) ∧
      MadeFrom classes "Account" [balance, owner, balance] opening ⟨#[]⟩
        (opened.instantiateWith {} opening ⟨#[]⟩).2 ∧
      (opened.get balanceProperty account (opened.instantiateWith {} opening ⟨#[]⟩).2).1 =
        .ok (.int 9) := by
  have built : ((Builder.start "Account").declareAll openings).build classes = .ok opened := rfl
  have ran : opened.instantiateWith {} opening ⟨#[]⟩ =
      (.ok account,
        ⟨#[OrderedMap.ofList [("owner", .ref (.str "Ada")), ("balance", .int 9)]]⟩) := rfl
  have only : openings.filter Declaration.isConstructor =
      [.constructor [balance, owner, balance]] := rfl
  obtain ⟨succeeds, _⟩ := Builder.instantiateWith_fills only built {} opening ⟨#[]⟩
  obtain ⟨_, madeFrom, reads⟩ := succeeds _ _ ran
  have isReadable : opened.IsReadable openings balanceProperty balance :=
    ⟨.field balance, _, .inl rfl, rfl, List.mem_cons_of_mem _ List.mem_cons_self⟩
  have lastNamed : LastNamed [balance, owner, balance] 2 balance := ⟨rfl, nofun⟩
  have gets := reads balanceProperty balance isReadable 2 balance (.int 9) lastNamed rfl rfl rfl
  rw [ran]
  exact ⟨rfl, madeFrom, congrArg Prod.fst gets⟩

end Account

end BeanDispatch
