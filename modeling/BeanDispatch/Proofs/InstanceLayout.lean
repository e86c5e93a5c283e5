import BeanDispatch.Proofs.Substitution

/-! The layout of a new object. The declarations along the superclasses, read from the root class
down, are the pairs that the layout is made of, so a field stands where its name is declared first
and holds what the last declaration of the nearest class gives it. The superclasses of a superclass
are the end of the chain, so reading from the root class down starts with all that they declare, and
the names of a superclass come first and in the same order, whatever a class declares again. -/

namespace BeanDispatch

/-- The declaration of a field that counts: the last of its name. -/
def ClassDef.lastField? (d : ClassDef) (name : String) : Option FieldDef :=
  d.fields.reverse.find? fun f => f.name = name

namespace ClassTable

variable {t : ClassTable} {d e : ClassDef} {cls name : String}

/-- The names of all declared fields from the root class down to the class, as often as they are
declared. -/
def declaredNames (t : ClassTable) (cls : String) : List String :=
  (t.superclassChain cls).reverse.flatMap fun d => d.fields.map FieldDef.name

/-! ### Names -/

theorem keys_layout (t : ClassTable) (cls : String) :
    (t.layout cls).keys = (t.declaredNames cls).eraseDups := by
  rw [layout, OrderedMap.keys_ofList, List.map_flatMap, declaredNames]
  simp only [List.map_map, Function.comp_def]

theorem Extends.declaredNames_prefix (reached : t.Reachable) (below : t.Extends cls name) :
    t.declaredNames name <+: t.declaredNames cls := by
  obtain ⟨lower, chain⟩ := below.suffix reached
  rw [declaredNames, declaredNames, ← chain, List.reverse_append, List.flatMap_append]
  exact List.prefix_append _ _

/-- The fields of a superclass come first, in the order that they have there. -/
theorem Extends.keys_layout_prefix (reached : t.Reachable) (below : t.Extends cls name) :
    (t.layout name).keys <+: (t.layout cls).keys := by
  obtain ⟨more, names⟩ := below.declaredNames_prefix reached
  rw [keys_layout, keys_layout, ← names, List.eraseDups_append]
  exact List.prefix_append _ _

/-! ### Contents -/

theorem lookupEntry_flatMap {α β : Type} (key : String) (xs : List β)
    (f : β → List (String × α)) :
    lookupEntry key (xs.flatMap f) = xs.findSome? fun x => lookupEntry key (f x) := by
  induction xs with
  | nil => rfl
  | cons x rest ih =>
    rw [List.flatMap_cons, lookupEntry_append, ih, List.findSome?_cons]
    cases lookupEntry key (f x) <;> rfl

theorem lookupEntry_declared (fields : List FieldDef) (name : String) :
    lookupEntry name (fields.map fun f => (f.name, f.initial)) =
      (fields.find? fun f => f.name = name).map FieldDef.initial := by
  induction fields with
  | nil => rfl
  | cons f rest ih =>
    rw [List.map_cons, lookupEntry, ih]
    by_cases here : f.name = name
    · simp [here]
    · simp [here]

/-- A field holds what the nearest class that declares it gives it, by its last declaration
there. -/
theorem get?_layout_eq (t : ClassTable) (cls name : String) :
    (t.layout cls).get? name =
      (t.superclassChain cls).findSome? fun d => (d.lastField? name).map FieldDef.initial := by
  rw [layout, OrderedMap.get?_ofList, List.reverse_flatMap, List.reverse_reverse,
    lookupEntry_flatMap]
  simp only [Function.comp_def, ← List.map_reverse, lookupEntry_declared, ClassDef.lastField?]

/-! ### New objects -/

theorem newInstance_eq (found : t.get? cls = some d) (isClass : d.isInterface = false)
    (h : Heap) : t.newInstance cls h = (.ok (h.next cls), t.withNew cls h) := by
  rw [newInstance, require, found, Action.ofExcept_ok, pure_bind, isClass]
  rfl

/-- A class has a new object on every heap. No field of it occurs twice, it has exactly the fields
that the class and its superclasses declare, each at the place of its first declaration from the
root class down and with the content of the last declaration in the nearest class that declares it.
Every superclass has a new object as well, and its fields come first in those of the class. -/
theorem newInstance_lays_out (reached : t.Reachable) (found : t.get? cls = some d)
    (isClass : d.isInterface = false) (before : Heap) :
    ∃ ref after, t.newInstance cls before = (.ok ref, after) ∧
      (after.fields ref).keys.Nodup ∧
      (∀ name, name ∈ (after.fields ref).keys ↔
        ∃ e ∈ t.superclassChain cls, ∃ f ∈ e.fields, f.name = name) ∧
      (after.fields ref).keys = (t.declaredNames cls).eraseDups ∧
      (∀ name, after.field? ref name =
        (t.superclassChain cls).findSome? fun e => (e.lastField? name).map FieldDef.initial) ∧
      ∀ superclass, t.Extends cls superclass → ∀ otherBefore, ∃ upper otherAfter,
        t.newInstance superclass otherBefore = (.ok upper, otherAfter) ∧
          (otherAfter.fields upper).keys <+: (after.fields ref).keys := by
  have laidOut : (t.withNew cls before).fields (before.next cls) = t.layout cls :=
    t.fields_withNew_next cls before
  refine ⟨before.next cls, t.withNew cls before, newInstance_eq found isClass before, ?_⟩
  simp only [Heap.field?, laidOut]
  refine ⟨(t.layout cls).distinct, fun name => ?_, t.keys_layout cls,
    fun name => t.get?_layout_eq cls name, fun superclass below otherBefore => ?_⟩
  · simp only [mem_keys_layout_iff, List.mem_map]
  · obtain ⟨e, inChain, named⟩ := below
    have isKnown := (listing_superclassChain reached cls).known e inChain
    have isAlsoClass := isClass_of_mem_superclassChain reached found isClass e inChain
    rw [named] at isKnown
    refine ⟨_, _, newInstance_eq isKnown isAlsoClass otherBefore, ?_⟩
    rw [fields_withNew_next]
    exact Extends.keys_layout_prefix reached ⟨e, inChain, named⟩

end ClassTable

namespace Menagerie

def animal : ClassDef :=
  { ClassDef.ofClass "Animal" with fields := [⟨"name", .null⟩, ⟨"legs", .int 4⟩] }

/-- A bird declares the legs of an animal again, and its wings twice. -/
def bird : ClassDef :=
  { (ClassDef.ofClass "Bird").extending "Animal" with
    fields := [⟨"wings", .int 0⟩, ⟨"legs", .int 2⟩, ⟨"wings", .int 2⟩] }

def classes : ClassTable := ⟨bird :: animal :: ClassTable.builtin.defs⟩

theorem reachable_classes : classes.Reachable :=
  .define (.define .builtin (d := animal) rfl) (d := bird) rfl

/-- The legs of a bird stand where an animal has them, but there are two of them. -/
theorem newInstance_lays_out_bird :
    classes.get? "Bird" = some bird ∧ bird.isInterface = false ∧
      classes.Extends "Bird" "Animal" ∧
      ∃ ref after, classes.newInstance "Bird" .empty = (.ok ref, after) ∧
        (after.fields ref).keys = ["name", "legs", "wings"] ∧
        after.field? ref "legs" = some (.int 2) ∧ after.field? ref "wings" = some (.int 2) ∧
        ∃ upper otherAfter, classes.newInstance "Animal" .empty = (.ok upper, otherAfter) ∧
          (otherAfter.fields upper).keys <+: (after.fields ref).keys := by
  have found : classes.get? "Bird" = some bird := rfl
  have below : classes.Extends "Bird" "Animal" := ⟨animal, .tail _ (.head _), rfl⟩
  obtain ⟨ref, after, made, _, _, order, contents, inherits⟩ :=
    ClassTable.newInstance_lays_out reachable_classes found rfl .empty
  refine ⟨found, rfl, below, ref, after, made, ?_, ?_, ?_, inherits "Animal" below .empty⟩
  · rw [order]
    decide
  · rw [contents]
    rfl
  · rw [contents]
    rfl

end Menagerie

end BeanDispatch
