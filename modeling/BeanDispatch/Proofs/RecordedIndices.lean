import BeanDispatch.Proofs.BeanFields
import BeanDispatch.Proofs.Lists

/-! What the indices of an introspection stand for. Declarations append targets to a catalog and
record the indices with properties and methods, in two lists that are kept apart from it. `Recorded`
is what every declaration preserves: the recorded indices are those of the catalog, each once, and
each property and method holds the indices of the targets that its declaration asks for. An index is
loose between the moment it is handed out and the moment it is recorded. -/

namespace BeanDispatch

/-! ### Declared targets -/

/-- A property as it is declared: its descriptor and the targets of its accessors. -/
structure DeclaredProperty where
  descriptor : Descriptor
  read : Option Target := none
  write : Option Target := none
  wither : Option Target := none

namespace Declaration

/-- The property that is declared about a bean type, if it is one. -/
def property? (beanType : String) : Declaration → Option DeclaredProperty
  | .field d => some
    { descriptor := d
      read := some (.fieldGet ⟨beanType, d.name, d.type⟩)
      write := some (.fieldSet ⟨beanType, d.name, d.type⟩) }
  | .readOnlyField d => some
    { descriptor := d
      read := some (.fieldGet ⟨beanType, d.name, d.type⟩) }
  | .property d accessors =>
    let accessor (params : List TypeName) (result : TypeName) (name : String) : Target :=
      .method ⟨beanType, ⟨name, params, result⟩, false⟩ .one
    some
      { descriptor := d
        read := accessors.getter.map (accessor [] d.type)
        write := accessors.setter.map (accessor [d.type] .void)
        wither := accessors.wither.map (accessor [d.type] (.named beanType)) }
  | _ => none

/-- The method that is declared, if it is one. -/
def method? : Declaration → Option MethodDeclaration
  | .method d => some d
  | _ => none

end Declaration

/-- The target of a method that is declared about a bean type, for the generated type `thisType`. -/
def MethodDeclaration.target (beanType thisType : String) (d : MethodDeclaration) : Target :=
  let method : MethodTarget :=
    ⟨d.owner.getD beanType, ⟨d.name, d.arguments.map Descriptor.type, d.result⟩, d.viaInterface⟩
  match d.bridge with
  | some (proxy, bridge) => .intercepted ⟨method, proxy, bridge, thisType⟩
  | none => .method method d.style

/-! ### Indices and their targets -/

/-- The index is that of this target. -/
def Catalog.Denotes (c : Catalog) (index : UInt32) (target : Target) : Prop :=
  c.get? index = some target

theorem Catalog.Records.denotes {c : Catalog} {index : UInt32} {target : Target}
    (recorded : c.Records index target) (small : c.targets.length ≤ Nat.pow 2 32) :
    c.Denotes index target := by
  obtain ⟨position, placed, rfl⟩ := recorded
  have inside : position < c.targets.length := (List.getElem?_eq_some_iff.1 placed).1
  rw [Denotes, get?, index_exact small inside, placed]

namespace PendingProperty

def indices (p : PendingProperty) : List UInt32 :=
  p.read.toList ++ p.write.toList ++ p.wither.toList

/-- The indices of a property are related to the targets that are declared for it, one by one. -/
structure StandsFor (relates : UInt32 → Target → Prop) (p : PendingProperty)
    (d : DeclaredProperty) : Prop where
  descriptor : p.descriptor = d.descriptor
  read : Option.Rel relates p.read d.read
  write : Option.Rel relates p.write d.write
  wither : Option.Rel relates p.wither d.wither

end PendingProperty

/-- What has been recorded about a property. -/
def Property.recorded (p : Property) : PendingProperty := ⟨p.descriptor, p.read, p.write, p.wither⟩

/-- A method is the declared one, and its index is related to the declared target. -/
structure BeanMethod.StandsFor (relates : UInt32 → Target → Prop) (beanType thisType : String)
    (m : BeanMethod) (d : MethodDeclaration) : Prop where
  name : m.name = d.name
  result : m.result = Descriptor.ofType d.result
  arguments : m.arguments = d.arguments
  annotations : m.annotations = d.annotations
  single : m.singleValue = (d.bridge.isNone && d.style = .one)
  index : relates m.index (d.target beanType thisType)

section StandsFor

variable {relates weaker : UInt32 → Target → Prop}

theorem PendingProperty.StandsFor.mono
    (mono : ∀ index target, relates index target → weaker index target) {p : PendingProperty}
    {d : DeclaredProperty} (stands : p.StandsFor relates d) : p.StandsFor weaker d :=
  ⟨stands.descriptor, rel_mono mono stands.read, rel_mono mono stands.write,
    rel_mono mono stands.wither⟩

theorem BeanMethod.StandsFor.mono
    (mono : ∀ index target, relates index target → weaker index target)
    {beanType thisType : String} {m : BeanMethod} {d : MethodDeclaration}
    (stands : m.StandsFor relates beanType thisType d) :
    m.StandsFor weaker beanType thisType d :=
  ⟨stands.name, stands.result, stands.arguments, stands.annotations, stands.single,
    mono _ _ stands.index⟩

end StandsFor

/-! ### Declarations one after the other -/

namespace Builder

/-- The recorded indices, those of properties first. -/
def indices (b : Builder) : List UInt32 :=
  b.properties.flatMap PendingProperty.indices ++ b.methods.map BeanMethod.index

/-- The properties and methods are those of the declarations, in their order, and hold the indices
of the declared targets. Each index of the catalog has been recorded once or is loose. -/
structure Recorded (b : Builder) (ds : List Declaration) (loose : List UInt32) : Prop where
  properties : List.Forall₂ (PendingProperty.StandsFor b.catalog.Records) b.properties
    (ds.filterMap (Declaration.property? b.beanType))
  methods : List.Forall₂ (BeanMethod.StandsFor b.catalog.Records b.beanType b.catalog.thisType)
    b.methods (ds.filterMap Declaration.method?)
  indices : (b.indices ++ loose).Perm
    ((List.range b.catalog.targets.length).map Nat.toUInt32)

/-- Appends a target, if there is one, and yields its index. -/
def registerOption (b : Builder) (target : Option Target) : Option UInt32 × Builder :=
  match target with
  | some target => ((b.register target).1, (b.register target).2)
  | none => (none, b)

/-- Appends the targets of a property and records their indices with it. -/
def recordTargets (b : Builder) (d : DeclaredProperty) : Builder :=
  let (read, b) := b.registerOption d.read
  let (write, b) := b.registerOption d.write
  let (wither, b) := b.registerOption d.wither
  b.recordProperty { descriptor := d.descriptor, read, write, wither }

variable {b : Builder} {ds : List Declaration} {loose : List UInt32}

theorem recorded_start (beanType : String) : (Builder.start beanType).Recorded [] [] :=
  ⟨.nil, .nil, .nil⟩

/-- Every declaration of a property appends its targets and records their indices. -/
theorem declare_eq_recordTargets {d : Declaration} {p : DeclaredProperty}
    (declares : d.property? b.beanType = some p) : b.declare d = b.recordTargets p := by
  cases d with
  | field d | readOnlyField d =>
    cases declares
    rfl
  | property d accessors =>
    cases declares
    obtain ⟨getter, setter, wither⟩ := accessors
    cases getter <;> cases setter <;> cases wither <;> rfl
  | _ => cases declares

theorem Recorded.register (recorded : b.Recorded ds loose) (target : Target) :
    (b.register target).2.Recorded ds (loose ++ [b.catalog.nextIndex]) := by
  have later : ∀ index other, b.catalog.Records index other →
      (b.catalog.append target).Records index other := fun _ _ old => old.append target
  refine ⟨recorded.properties.imp fun _ _ => .mono later,
    recorded.methods.imp fun _ _ => .mono later, ?_⟩
  have length : (b.register target).2.catalog.targets.length = b.catalog.targets.length + 1 :=
    List.length_append
  rw [length, List.range_succ, List.map_append, ← List.append_assoc]
  exact recorded.indices.append_right _

/-- Appending a further target leaves what an index was handed out for. -/
theorem records_registerOption {index : UInt32} {target : Target}
    (recorded : b.catalog.Records index target) (later : Option Target) :
    (b.registerOption later).2.catalog.Records index target := by
  cases later with
  | some other => exact recorded.append other
  | none => exact recorded

theorem beanType_registerOption (b : Builder) (target : Option Target) :
    (b.registerOption target).2.beanType = b.beanType := by
  cases target <;> rfl

theorem Recorded.registerOption (recorded : b.Recorded ds loose) (target : Option Target) :
    (b.registerOption target).2.Recorded ds (loose ++ (b.registerOption target).1.toList) ∧
      Option.Rel (b.registerOption target).2.catalog.Records (b.registerOption target).1
        target := by
  cases target with
  | some target => exact ⟨recorded.register target, .some (b.catalog.records_nextIndex target)⟩
  | none =>
    refine ⟨?_, .none⟩
    show b.Recorded ds (loose ++ [])
    rw [List.append_nil]
    exact recorded

/-- A property is recorded with the indices that were handed out for it. -/
theorem Recorded.recordProperty {q : PendingProperty} {d : Declaration} {p : DeclaredProperty}
    (recorded : b.Recorded ds q.indices) (stands : q.StandsFor b.catalog.Records p)
    (declares : d.property? b.beanType = some p) :
    (b.recordProperty q).Recorded (ds ++ [d]) [] := by
  have noMethod : d.method? = none := by
    cases d with
    | method d => cases declares
    | _ => rfl
  refine ⟨?_, ?_, ?_⟩
  · show List.Forall₂ _ (b.properties ++ [q]) (List.filterMap (Declaration.property? b.beanType) _)
    rw [filterMap_concat_of_some declares]
    exact List.rel_append recorded.properties (.cons stands .nil)
  · rw [filterMap_concat_of_none noMethod]
    exact recorded.methods
  · have moved : ((b.recordProperty q).indices ++ []).Perm (b.indices ++ q.indices) := by
      simp only [Builder.indices, Builder.recordProperty, List.flatMap_append, List.flatMap_cons,
        List.flatMap_nil, List.append_nil, List.append_assoc]
      exact List.perm_append_comm.append_left _
    exact moved.trans recorded.indices

theorem Recorded.recordTargets (recorded : b.Recorded ds []) {d : Declaration}
    {p : DeclaredProperty} (declares : d.property? b.beanType = some p) :
    (b.recordTargets p).Recorded (ds ++ [d]) [] := by
  obtain ⟨afterRead, read⟩ := recorded.registerOption p.read
  obtain ⟨afterWrite, write⟩ := afterRead.registerOption p.write
  obtain ⟨afterWither, wither⟩ := afterWrite.registerOption p.wither
  have sameType := ((beanType_registerOption _ p.wither).trans
    (beanType_registerOption _ p.write)).trans (beanType_registerOption b p.read)
  refine afterWither.recordProperty ⟨rfl, ?_, ?_, wither⟩ ?_
  · exact rel_mono (fun _ _ old => records_registerOption (records_registerOption old _) _) read
  · exact rel_mono (fun _ _ old => records_registerOption old _) write
  · exact (congrArg (Declaration.property? · d) sameType).trans declares

theorem Recorded.declareMethod (recorded : b.Recorded ds []) (d : MethodDeclaration) :
    (b.declareMethod d).Recorded (ds ++ [.method d]) [] := by
  have registered := recorded.register (b.methodTarget d)
  refine ⟨?_, ?_, ?_⟩
  · rw [filterMap_concat_of_none rfl]
    exact registered.properties
  · have kept : (Declaration.method d).method? = some d := rfl
    rw [filterMap_concat_of_some kept]
    refine List.rel_append registered.methods (.cons ⟨rfl, rfl, rfl, rfl, rfl, ?_⟩ .nil)
    exact b.catalog.records_nextIndex (b.methodTarget d)
  · have moved : ((b.declareMethod d).indices ++ []).Perm
        (b.indices ++ [b.catalog.nextIndex]) := by
      simp [Builder.indices, Builder.declareMethod, Builder.register]
    exact moved.trans registered.indices

theorem Recorded.setAside (recorded : b.Recorded ds []) {d : Declaration} {after : Builder}
    (noProperty : d.property? b.beanType = none) (noMethod : d.method? = none)
    (sameType : after.beanType = b.beanType) (sameCatalog : after.catalog = b.catalog)
    (sameProperties : after.properties = b.properties) (sameMethods : after.methods = b.methods) :
    after.Recorded (ds ++ [d]) [] := by
  refine ⟨?_, ?_, ?_⟩
  · rw [sameType, sameCatalog, sameProperties, filterMap_concat_of_none noProperty]
    exact recorded.properties
  · rw [sameType, sameCatalog, sameMethods, filterMap_concat_of_none noMethod]
    exact recorded.methods
  · rw [Builder.indices, sameCatalog, sameProperties, sameMethods]
    exact recorded.indices

theorem Recorded.installConstructor (recorded : b.Recorded ds []) {d : Declaration}
    (noProperty : d.property? b.beanType = none) (noMethod : d.method? = none)
    (arguments : List Descriptor) (body : Constructor) :
    (b.installConstructor arguments body).Recorded (ds ++ [d]) [] := by
  unfold Builder.installConstructor
  split
  · exact recorded.setAside noProperty noMethod rfl rfl rfl rfl
  · exact recorded.setAside noProperty noMethod rfl rfl rfl rfl

theorem Recorded.declare (recorded : b.Recorded ds []) (d : Declaration) :
    (b.declare d).Recorded (ds ++ [d]) [] := by
  cases d with
  | field | readOnlyField | property =>
    rw [declare_eq_recordTargets rfl]
    exact recorded.recordTargets rfl
  | method d => exact recorded.declareMethod d
  | constructor arguments => exact recorded.installConstructor rfl rfl arguments _
  | constructorWith arguments body => exact recorded.installConstructor rfl rfl arguments body
  | defaultConstructor | constructorAnnotations | emitOptions =>
    exact recorded.setAside rfl rfl rfl rfl rfl rfl

/-- What any number of declarations preserve. -/
theorem Recorded.declareAll {past : List Declaration} (recorded : b.Recorded past [])
    (ds : List Declaration) : (b.declareAll ds).Recorded (past ++ ds) [] := by
  induction ds generalizing b past with
  | nil =>
    rw [List.append_nil]
    exact recorded
  | cons d ds ih =>
    have next := ih (recorded.declare d)
    rw [List.append_assoc] at next
    exact next

theorem recorded_of_declared {beanType : String}
    (declared : (Builder.start beanType).declareAll ds = b) : b.Recorded ds [] := by
  rw [← declared]
  exact (recorded_start beanType).declareAll ds

/-- The recorded indices are the positions of all targets, each once. -/
theorem Recorded.positions (recorded : b.Recorded ds [])
    (small : b.catalog.targets.length ≤ Nat.pow 2 32) :
    (b.indices.map UInt32.toNat).Perm (List.range b.catalog.targets.length) := by
  have exactly : ((List.range b.catalog.targets.length).map Nat.toUInt32).map UInt32.toNat =
      List.range b.catalog.targets.length := by
    have each : ∀ position ∈ List.range b.catalog.targets.length,
        (UInt32.toNat ∘ Nat.toUInt32) position = id position := fun position inside =>
      Catalog.index_exact small (List.mem_range.1 inside)
    rw [List.map_map, List.map_congr_left each, List.map_id]
  have perm := recorded.indices
  rw [List.append_nil] at perm
  rw [← exactly]
  exact perm.map UInt32.toNat

end Builder

/-! ### Introspections -/

/-- The indices that an introspection holds, those of properties first. -/
def Introspection.indices {γ : Type} (i : Introspection γ) : List UInt32 :=
  i.properties.flatMap (fun p => p.recorded.indices) ++ i.methods.map BeanMethod.index

namespace Builder

variable {b : Builder} {ds : List Declaration} {t : ClassTable} {i : Introspection CompiledType}

theorem indices_finish (b : Builder) (t : ClassTable) (routines : RoutineSet) :
    (b.finish t routines).indices = b.indices := by
  unfold Introspection.indices Builder.indices finish
  rw [List.flatMap_map]
  rfl

/-- Whatever is declared and built, the indices of all properties and methods are the positions of
the catalog that was emitted, each once. Properties and methods stand in the order of their
declarations, and the indices of each are those of the targets that its declaration asks for. -/
theorem indices_of_build {beanType : String}
    (declared : (Builder.start beanType).declareAll ds = b) (built : b.build t = .ok i)
    (small : b.catalog.targets.length ≤ Nat.pow 2 32) :
    b.catalog.emit b.options = .ok i.generated.routines ∧
      i.indices.Nodup ∧
      (i.indices.map UInt32.toNat).Perm (List.range b.catalog.targets.length) ∧
      List.Forall₂ (fun p d => p.recorded.StandsFor b.catalog.Denotes d) i.properties
        (ds.filterMap (Declaration.property? beanType)) ∧
      List.Forall₂ (BeanMethod.StandsFor b.catalog.Denotes beanType b.catalog.thisType) i.methods
        (ds.filterMap Declaration.method?) := by
  have recorded := recorded_of_declared declared
  have sameType : b.beanType = beanType := by
    rw [← declared]
    exact beanType_declareAll _ ds
  obtain ⟨_, routines, emitted, rfl⟩ := build_ok built
  have positions := recorded.positions small
  have denotes : ∀ index target, b.catalog.Records index target → b.catalog.Denotes index target :=
    fun _ _ found => found.denotes small
  have distinct : (b.indices.map UInt32.toNat).Nodup :=
    positions.nodup_iff.2 List.nodup_range
  rw [indices_finish]
  refine ⟨emitted, List.Nodup.of_map _ distinct, positions, ?_, ?_⟩
  · rw [← sameType]
    refine List.forall₂_map_left_iff.2 ?_
    exact recorded.properties.imp fun _ _ => .mono denotes
  · rw [← sameType]
    exact recorded.methods.imp fun _ _ => .mono denotes

end Builder

namespace Teller

def name : Descriptor := .mk "name" (.named Builtin.string) [] false OrderedMap.empty

def window : Descriptor := .mk "window" (.primitive .int) [] false OrderedMap.empty

def greet : MethodDeclaration where
  name := "greet"
  result := .void
  bridge := some ("AuditedTeller", "greetAudited")

def leave : MethodDeclaration where
  name := "leave"
  result := .void
  owner := some "Worker"
  viaInterface := true
  style := .one

/-- Two methods with a property before each, and a constructor in between. -/
def declarations : List Declaration :=
  [.property window { getter := some "getWindow", wither := some "withWindow" }, .method greet,
    .constructor [name], .field name, .method leave]

def classes : ClassTable where
  defs := ClassDef.ofClass "Teller" :: ClassTable.builtin.defs

/-- Five members hold six indices. -/
theorem indices_of_build_teller :
    ∃ i, ((Builder.start "Teller").declareAll declarations).build classes = .ok i ∧
      i.indices.Nodup ∧ (i.indices.map UInt32.toNat).Perm (List.range 6) ∧
      List.Forall₂ (BeanMethod.StandsFor
        ((Builder.start "Teller").declareAll declarations).catalog.Denotes "Teller"
        "Teller$Introspection") i.methods [greet, leave] := by
  have small : ((Builder.start "Teller").declareAll declarations).catalog.targets.length ≤
      Nat.pow 2 32 := by decide
  obtain ⟨i, built⟩ : ∃ i, ((Builder.start "Teller").declareAll declarations).build classes =
      .ok i := ⟨_, rfl⟩
  obtain ⟨_, distinct, positions, _, methods⟩ := Builder.indices_of_build rfl built small
  exact ⟨i, built, distinct, positions, methods⟩

end Teller

end BeanDispatch
