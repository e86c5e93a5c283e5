import Mathlib.Data.List.Induction
import BeanDispatch.Proofs.RecordedIndices

/-! Properties by name. A generated type may find a property in a way of its own or leave it to a
plain search, which comes to the first property of a name. The index that is built together with the
routines takes in one property after the other, each in the place of an earlier one of its name, so
it comes to the last property of a name. The two know the same names, and they agree on a name
exactly if no two properties have it. -/

namespace BeanDispatch

/-! ### The index -/

section Index

variable {properties : List Property} {name : String} {position : Nat}

/-- The position of the first property of a name. -/
def firstNamed? (name : String) (properties : List Property) : Option Nat :=
  properties.findIdx? fun p => p.name = name

theorem get?_indexProperties_nil (name : String) :
    (Builder.indexProperties []).get? name = none := rfl

/-- A further property takes over its name. -/
theorem get?_indexProperties_concat (properties : List Property) (p : Property) (name : String) :
    (Builder.indexProperties (properties ++ [p])).get? name =
      if p.name = name then some properties.length
      else (Builder.indexProperties properties).get? name := by
  simp only [Builder.indexProperties, OrderedMap.ofList, List.zipIdx_append, List.map_append,
    List.foldl_append, List.zipIdx_cons, List.zipIdx_nil, List.map_cons, List.map_nil,
    List.foldl_cons, List.foldl_nil, OrderedMap.get?_insert, Nat.zero_add]

/-- A further property is the first of its name only if no earlier one has it. -/
theorem firstNamed?_concat (properties : List Property) (p : Property) (name : String) :
    firstNamed? name (properties ++ [p]) =
      (firstNamed? name properties).or (if p.name = name then some properties.length else none) := by
  rw [firstNamed?, List.findIdx?_append, List.findIdx?_singleton]
  by_cases same : p.name = name <;> simp [same, firstNamed?]

theorem count_names_concat (properties : List Property) (p : Property) (name : String) :
    ((properties ++ [p]).map Property.name).count name =
      (properties.map Property.name).count name + if p.name = name then 1 else 0 := by
  simp [List.count_append, List.count_singleton]

theorem firstNamed?_eq_none_iff :
    firstNamed? name properties = none ↔ (properties.map Property.name).count name = 0 := by
  simp [firstNamed?, List.findIdx?_eq_none_iff, List.count_eq_zero]

theorem placed_concat {properties : List Property} {p q : Property} {position : Nat} :
    (properties ++ [p])[position]? = some q ↔
      properties[position]? = some q ∨ position = properties.length ∧ p = q := by
  rcases Nat.lt_trichotomy position properties.length with earlier | here | later
  · simp [List.getElem?_append_left earlier, Nat.ne_of_lt earlier]
  · simp [here]
  · have outside : (properties ++ [p]).length ≤ position := by simpa using Nat.succ_le_of_lt later
    simp [List.getElem?_eq_none outside, List.getElem?_eq_none (Nat.le_of_lt later),
      Nat.ne_of_gt later]

/-- The index holds the position of the last property of a name. -/
theorem get?_indexProperties_eq_some_iff :
    (Builder.indexProperties properties).get? name = some position ↔
      ∃ p, properties[position]? = some p ∧ p.name = name ∧
        ∀ later q, position < later → properties[later]? = some q → q.name ≠ name := by
  induction properties using List.reverseRecOn with
  | nil => simp [get?_indexProperties_nil]
  | append_singleton properties p ih =>
    rw [get?_indexProperties_concat]
    simp only [placed_concat]
    by_cases same : p.name = name
    · rw [if_pos same, Option.some.injEq]
      constructor
      · rintro rfl
        refine ⟨p, .inr ⟨rfl, rfl⟩, same, fun later q beyond placed => ?_⟩
        rcases placed with before | ⟨atEnd, _⟩
        · have inside := (List.getElem?_eq_some_iff.1 before).1
          omega
        · omega
      · rintro ⟨q, before | ⟨atEnd, _⟩, _, last⟩
        · have inside := (List.getElem?_eq_some_iff.1 before).1
          exact absurd same (last _ p inside (.inr ⟨rfl, rfl⟩))
        · exact atEnd.symm
    · rw [if_neg same, ih]
      constructor
      · rintro ⟨q, placed, isNamed, last⟩
        refine ⟨q, .inl placed, isNamed, fun later r beyond found => ?_⟩
        rcases found with before | ⟨_, rfl⟩
        · exact last later r beyond before
        · exact same
      · rintro ⟨q, before | ⟨_, rfl⟩, isNamed, last⟩
        · exact ⟨q, before, isNamed, fun later r beyond found => last later r beyond (.inl found)⟩
        · exact absurd isNamed same

theorem getElem?_indexProperties :
    ((Builder.indexProperties properties).get? name).bind (fun position => properties[position]?) =
      properties.reverse.find? fun p => p.name = name := by
  induction properties using List.reverseRecOn with
  | nil => rfl
  | append_singleton properties p ih =>
    rw [get?_indexProperties_concat, List.reverse_concat, List.find?_cons, ← ih]
    by_cases same : p.name = name
    · simp [same]
    · simp only [same, if_false, decide_false]
      cases found : (Builder.indexProperties properties).get? name with
      | none => rfl
      | some position =>
        obtain ⟨q, placed, _⟩ := get?_indexProperties_eq_some_iff.1 found
        have inside : position < properties.length := (List.getElem?_eq_some_iff.1 placed).1
        exact List.getElem?_append_left inside

/-- The index and a plain search agree on a name exactly if no two properties have it. -/
theorem get?_indexProperties_eq_firstNamed?_iff :
    (Builder.indexProperties properties).get? name = firstNamed? name properties ↔
      (properties.map Property.name).count name ≤ 1 := by
  induction properties using List.reverseRecOn with
  | nil => simp [get?_indexProperties_nil, firstNamed?]
  | append_singleton properties p ih =>
    rw [get?_indexProperties_concat, firstNamed?_concat, count_names_concat]
    by_cases same : p.name = name
    · simp only [same, if_true]
      cases found : firstNamed? name properties with
      | none =>
        rw [firstNamed?_eq_none_iff] at found
        simp [found]
      | some position =>
        have inside : position < properties.length :=
          (List.findIdx?_eq_some_iff_findIdx_eq.1 found).1
        have some : (properties.map Property.name).count name ≠ 0 := by
          rw [Ne, ← firstNamed?_eq_none_iff, found]
          exact nofun
        rw [Option.some_or, Option.some.injEq]
        omega
    · simp only [same, if_false, Option.or_none, Nat.add_zero]
      exact ih

end Index

/-! ### Introspections -/

/-- A generated type that leaves it to the plain search to find a property. -/
structure PlainSearch (γ : Type) where
  base : γ

instance {γ : Type} [GeneratedType γ] : GeneratedType (PlainSearch γ) where
  dispatch g := GeneratedType.dispatch g.base
  dispatchOne g := GeneratedType.dispatchOne g.base
  locate g := GeneratedType.locate g.base
  isInstance g := GeneratedType.isInstance g.base
  construct g := GeneratedType.construct g.base
  constructDefault g := GeneratedType.constructDefault g.base

/-- The same members over another generated type. -/
def Introspection.over {γ δ : Type} (i : Introspection γ) (g : δ) : Introspection δ where
  generated := g
  beanType := i.beanType
  properties := i.properties
  methods := i.methods
  constructorArguments := i.constructorArguments
  constructorAnnotations := i.constructorAnnotations

namespace Builder

variable {b : Builder} {ds : List Declaration} {t : ClassTable} {i : Introspection CompiledType}
  {beanType : String}

theorem names_of_build (built : ((Builder.start beanType).declareAll ds).build t = .ok i) :
    i.properties.map Property.name =
      (ds.filterMap (Declaration.property? beanType)).map fun d => d.descriptor.name := by
  have recorded : ((Builder.start beanType).declareAll ds).Recorded ds [] :=
    recorded_of_declared rfl
  have stands := recorded.properties
  rw [beanType_declareAll] at stands
  obtain ⟨_, _, _, rfl⟩ := build_ok built
  rw [← List.forall₂_eq_eq_eq]
  refine List.forall₂_map_left_iff.2 (List.forall₂_map_left_iff.2 (List.forall₂_map_right_iff.2 ?_))
  exact stands.imp fun p d one => congrArg Descriptor.name one.descriptor

theorem findProperty_eq (built : b.build t = .ok i) (name : String) (ps : List Property) :
    GeneratedType.findProperty i.generated name ps = (indexProperties i.properties).get? name := by
  obtain ⟨_, _, _, rfl⟩ := build_ok built
  rfl

theorem property?_eq_find? (built : b.build t = .ok i) (name : String) :
    i.property? name = i.properties.reverse.find? fun p => p.name = name := by
  rw [Introspection.property?, findProperty_eq built, getElem?_indexProperties]

/-- Whatever is declared and built, a name leads to the last property that was declared under it, and
to none exactly if none was. The same introspection with a plain search leads to the first. So the
two agree on the position of a name exactly if it was declared at most once. -/
theorem property_found_is_last (built : ((Builder.start beanType).declareAll ds).build t = .ok i)
    (name : String) :
    let declared := (ds.filterMap (Declaration.property? beanType)).map fun d => d.descriptor.name
    let plain : PlainSearch CompiledType := ⟨i.generated⟩
    i.properties.map Property.name = declared ∧
      (∀ position, GeneratedType.findProperty i.generated name i.properties = some position ↔
        ∃ p, i.properties[position]? = some p ∧ p.name = name ∧
          ∀ later q, position < later → i.properties[later]? = some q → q.name ≠ name) ∧
      (GeneratedType.findProperty i.generated name i.properties =
        GeneratedType.findProperty plain name i.properties ↔ declared.count name ≤ 1) ∧
      i.property? name = (i.properties.reverse.find? fun p => p.name = name) ∧
      (i.over plain).property? name = (i.properties.find? fun p => p.name = name) ∧
      (i.property? name = none ↔ name ∉ declared) := by
  intro declared plain
  have names : i.properties.map Property.name = declared := names_of_build built
  have leads := property?_eq_find? built name
  refine ⟨names, fun position => ?_, ?_, leads, List.find?_eq_bind_findIdx?_getElem?.symm, ?_⟩
  · rw [findProperty_eq built]
    exact get?_indexProperties_eq_some_iff
  · rw [findProperty_eq built, ← names]
    exact get?_indexProperties_eq_firstNamed?_iff
  · rw [leads, ← names]
    simp

end Builder

namespace Teller

/-- The window can only be read at first, and is declared again as a field. -/
def redeclarations : List Declaration := [.readOnlyField window, .field name, .field window]

def redeclaredBuilder : Builder := (Builder.start "Teller").declareAll redeclarations

def redeclared : Introspection CompiledType :=
  redeclaredBuilder.finish classes
    ((redeclaredBuilder.catalog.emit {}).toOption.getD ⟨"", false, none, none, none⟩)

/-- The name is found at one position by both, and the window is found at its last. -/
theorem property_found_is_last_redeclared :
    redeclaredBuilder.build classes = .ok redeclared ∧
      GeneratedType.findProperty redeclared.generated "name" redeclared.properties =
        GeneratedType.findProperty (PlainSearch.mk redeclared.generated) "name"
          redeclared.properties ∧
      GeneratedType.findProperty redeclared.generated "window" redeclared.properties = some 2 ∧
      redeclared.property? "door" = none := by
  have built : redeclaredBuilder.build classes = .ok redeclared := rfl
  obtain ⟨_, _, alike, _⟩ := Builder.property_found_is_last built "name"
  obtain ⟨_, isLast, _⟩ := Builder.property_found_is_last built "window"
  obtain ⟨_, _, _, _, _, absent⟩ := Builder.property_found_is_last built "door"
  refine ⟨built, alike.2 (by decide), (isLast 2).2 ⟨_, rfl, rfl, ?_⟩, absent.2 (by decide)⟩
  intro later q beyond placed
  rw [List.getElem?_eq_none beyond] at placed
  cases placed

/-- The window that is found can be written, while the plain search finds the one that cannot. -/
theorem redeclared_window_displaces_first :
    redeclaredBuilder.build classes = .ok redeclared ∧
      GeneratedType.findProperty redeclared.generated "window" redeclared.properties = some 2 ∧
      GeneratedType.findProperty (PlainSearch.mk redeclared.generated) "window"
        redeclared.properties = some 0 ∧
      (redeclared.property? "window").map Property.readOnly = some false ∧
      ((redeclared.over (PlainSearch.mk redeclared.generated)).property? "window").map
        Property.readOnly = some true :=
  ⟨rfl, rfl, rfl, rfl, rfl⟩

end Teller

end BeanDispatch
