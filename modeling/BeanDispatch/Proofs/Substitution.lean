import BeanDispatch.Proofs.BeanEffects
import BeanDispatch.Proofs.SingleDispatch
import BeanDispatch.Proofs.Supertypes

/-! Substitution. Subtyping follows superclasses and interfaces alike, a new object has the fields
of its superclasses only, and a call looks for a body first in the superclasses and then in
interfaces. The three agree in a table whose definitions name nothing but interfaces as interfaces
and whose interfaces have no superclass: there an object can stand for an instance of every
supertype of its class, with all of its fields and with a body for each of its methods. A definition
checks that a superclass is no interface but not that an interface is no class, and an object of a
class that names another class as an interface lacks what that class declares. -/

namespace BeanDispatch

namespace ClassTable

variable {t next : ClassTable} {d e : ClassDef} {cls name lower upper : String}
  {params : List TypeName} {before after : Heap} {ref : Ref}

/-! ### Fields and bodies -/

/-- An object has the fields that its class and the superclasses declare. -/
theorem mem_keys_layout_iff :
    name ∈ (t.layout cls).keys ↔
      ∃ d ∈ t.superclassChain cls, name ∈ d.fields.map FieldDef.name := by
  rw [OrderedMap.mem_keys_iff, ← Option.ne_none_iff_exists', layout, OrderedMap.get?_ofList, Ne,
    lookupEntry_eq_none_iff, Decidable.not_not]
  simp

/-- A call finds a body in the class or a superclass, or in an interface. -/
theorem isSome_body?_iff :
    (t.body? cls name params).isSome = true ↔
      (∃ d ∈ t.superclassChain cls, (d.body? name params).isSome = true) ∨
        ∃ d ∈ t.supertypes cls, d.isInterface = true ∧ (d.body? name params).isSome = true := by
  rw [body?, Option.isSome_or, Bool.or_eq_true, List.findSome?_isSome_iff,
    List.findSome?_isSome_iff]
  simp only [List.mem_filter, and_assoc]

theorem newInstance_ok (made : t.newInstance cls before = (.ok ref, after)) :
    ref = before.next cls ∧ after = t.withNew cls before ∧
      ∃ d, t.get? cls = some d ∧ d.isInterface = false := by
  have known : ∃ d, t.get? cls = some d ∧ d.isInterface = false := by
    rw [newInstance, require] at made
    cases found : t.get? cls with
    | none =>
      rw [found] at made
      cases made
    | some d =>
      cases kind : d.isInterface with
      | false => exact ⟨d, rfl, kind⟩
      | true =>
        simp only [found, kind, Action.ofExcept_ok, pure_bind, ↓reduceIte] at made
        cases made
  rcases t.newInstance_outcome cls before with ⟨fault, refused⟩ | makes
  · rw [refused] at made
    cases made
  · rw [makes] at made
    cases made
    exact ⟨rfl, rfl, known⟩

theorem keys_of_newInstance (made : t.newInstance cls before = (.ok ref, after)) :
    (after.fields ref).keys = (t.layout cls).keys := by
  obtain ⟨rfl, rfl, _⟩ := newInstance_ok made
  rw [fields_withNew_next]

theorem hasField_iff_mem_keys (h : Heap) : h.hasField ref name = true ↔
    name ∈ (h.fields ref).keys := by
  rw [Heap.hasField_iff, OrderedMap.mem_keys_iff]
  rfl

/-! ### Kinds -/

/-- The definition names only interfaces as interfaces, and if it is an interface it has no
superclass. -/
def KindsFit (t : ClassTable) (d : ClassDef) : Prop :=
  (∀ name ∈ d.interfaces, ∃ e, t.get? name = some e ∧ e.isInterface = true) ∧
    (d.isInterface = true → d.superclass = none)

/-- Superclasses are classes of classes, and interfaces are interfaces. -/
def WellKinded (t : ClassTable) : Prop := ∀ d ∈ t.defs, t.KindsFit d

theorem wellKinded_builtin : builtin.WellKinded := by
  simp [WellKinded, KindsFit, builtin, ClassDef.extending, ClassDef.ofClass]

/-- It is enough that every definition fits the table that it is added to. -/
theorem WellKinded.define (fit : t.WellKinded) (fits : t.KindsFit d)
    (defined : t.define d = .ok next) : next.WellKinded := by
  obtain ⟨fresh, rfl⟩ := define_ok defined
  have kept {c : ClassDef} (fitsOlder : t.KindsFit c) : KindsFit ⟨d :: t.defs⟩ c := by
    refine ⟨fun name listed => ?_, fitsOlder.2⟩
    obtain ⟨e, found, isInterface⟩ := fitsOlder.1 name listed
    have other : d.name ≠ name := by
      intro same
      rw [same, contains, found] at fresh
      cases fresh
    exact ⟨e, (get?_cons_of_ne other).trans found, isInterface⟩
  exact List.forall_mem_cons.2 ⟨kept fits, fun c member => kept (fit c member)⟩

/-! ### What is above a class -/

theorem mem_superclassChain_self (reached : t.Reachable) (found : t.get? cls = some d) :
    d ∈ t.superclassChain cls := by
  rw [superclassChain, (layered reached).chainIn_eq]
  simp [found]

theorem mem_superclassChain_of_superclass (reached : t.Reachable)
    (member : d ∈ t.superclassChain cls) (extended : d.superclass = some name)
    (found : t.get? name = some e) : e ∈ t.superclassChain cls := by
  have isKnown := (listing_superclassChain reached cls).known d member
  have inOwn : e ∈ t.superclassChain d.name := by
    rw [superclassChain, (layered reached).chainIn_eq]
    simp only [isKnown, extended, Option.elim_some]
    exact List.mem_cons_of_mem _ (mem_superclassChain_self reached found)
  exact chainIn_subset (nodup_names reached) member e inOwn

theorem superclassChain_subset_supertypes (reached : t.Reachable) (cls : String) :
    t.superclassChain cls ⊆ t.supertypes cls :=
  (supertypes_completes reached cls).kept

/-- Climbing from a class one comes by its superclasses, and by interfaces that a method search
lists. -/
theorem WellKinded.above (fit : t.WellKinded) (reached : t.Reachable)
    (climbs : Relation.ReflTransGen t.Parent lower upper) (known : t.get? lower = some d)
    (found : t.get? upper = some e) :
    e ∈ t.superclassChain lower ∨ e.isInterface = true ∧ e ∈ t.supertypes lower := by
  induction climbs generalizing e with
  | refl =>
    rw [known] at found
    cases found
    exact .inl (mem_superclassChain_self reached known)
  | @tail mid upper _ parent ih =>
    obtain ⟨c, isMid, listed⟩ := parent
    have fits := fit c (mem_of_get? isMid).1
    -- an interface of a class that is listed is listed, and is an interface
    have viaInterface (inSupertypes : c ∈ t.supertypes lower) (named : upper ∈ c.interfaces) :
        e.isInterface = true ∧ e ∈ t.supertypes lower := by
      obtain ⟨i, isFound, isInterface⟩ := fits.1 upper named
      have same : i = e := Option.some.inj (isFound.symm.trans found)
      exact ⟨same ▸ isInterface,
        mem_supertypes_of_leads reached inSupertypes (.single ⟨upper, named, found⟩)⟩
    rw [ClassDef.parents, List.mem_append, Option.mem_toList] at listed
    rcases ih isMid with inChain | ⟨isInterface, inSupertypes⟩
    · rcases listed with extended | named
      · exact .inl (mem_superclassChain_of_superclass reached inChain extended found)
      · exact .inr (viaInterface (superclassChain_subset_supertypes reached lower inChain) named)
    · rcases listed with extended | named
      · rw [fits.2 isInterface] at extended
        cases extended
      · exact .inr (viaInterface inSupertypes named)

theorem supertypes_subset (reached : t.Reachable)
    (chain : t.superclassChain upper ⊆ t.supertypes lower) :
    t.supertypes upper ⊆ t.supertypes lower := by
  intro e listed
  obtain ⟨d, inChain, leads⟩ := (mem_supertypes_iff reached).1 listed
  exact mem_supertypes_of_leads reached (chain inChain) leads

theorem superclassChain_object (reached : t.Reachable) :
    t.superclassChain Builtin.object = [ClassDef.ofClass Builtin.object] := by
  rw [superclassChain, (layered reached).chainIn_eq]
  simp [get?_object reached, ClassDef.ofClass]

/-- The root class asks nothing of an object. -/
theorem body?_object (reached : t.Reachable) (name : String) (params : List TypeName) :
    ¬(t.body? Builtin.object name params).isSome = true := by
  rw [isSome_body?_iff, superclassChain_object reached]
  rintro (⟨d, member, found⟩ | ⟨d, member, _, found⟩)
  · rw [List.mem_singleton.1 member] at found
    cases found
  · obtain ⟨root, isRoot, leads⟩ := (mem_supertypes_iff reached).1 member
    rw [superclassChain_object reached, List.mem_singleton] at isRoot
    subst isRoot
    rcases Relation.ReflTransGen.cases_head leads with rfl | ⟨_, ⟨_, none, _⟩, _⟩
    · cases found
    · cases none

/-- A supertype is the root class, a superclass, or an interface that a method search lists. -/
theorem WellKinded.of_isSubtype (fit : t.WellKinded) (reached : t.Reachable)
    (known : t.get? lower = some d) (below : t.isSubtype lower upper = true) :
    upper = Builtin.object ∨ t.superclassChain upper ⊆ t.superclassChain lower ∨
      ∃ e ∈ t.supertypes lower, e.isInterface = true ∧ t.superclassChain upper = [e] := by
  rcases (isSubtype_iff reached).1 below with rfl | isRoot | climbs
  · exact .inr (.inl (List.Subset.refl _))
  · exact .inl isRoot
  · obtain ⟨_, _, parent⟩ := Relation.TransGen.tail'_iff.1 climbs
    obtain ⟨e, found⟩ := exists_get? ((layered reached).known_of_parent parent)
    have named := (mem_of_get? found).2
    rcases fit.above reached climbs.to_reflTransGen known found with inChain | ⟨isInterface, listed⟩
    · subst named
      exact .inr (.inl (chainIn_subset (nodup_names reached) inChain))
    · refine .inr (.inr ⟨e, listed, isInterface, ?_⟩)
      rw [superclassChain, (layered reached).chainIn_eq]
      simp [found, (fit e (mem_of_get? found).1).2 isInterface]

theorem WellKinded.body?_isSome (fit : t.WellKinded) (reached : t.Reachable)
    (known : t.get? lower = some d) (below : t.isSubtype lower upper = true)
    (found : (t.body? upper name params).isSome = true) :
    (t.body? lower name params).isSome = true := by
  rcases fit.of_isSubtype reached known below with rfl | chain | ⟨e, listed, isInterface, chain⟩
  · exact absurd found (body?_object reached name params)
  · have wider := supertypes_subset reached
      (List.Subset.trans chain (superclassChain_subset_supertypes reached lower))
    rw [isSome_body?_iff] at found ⊢
    rcases found with ⟨c, inChain, body⟩ | ⟨c, inSupertypes, body⟩
    · exact .inl ⟨c, chain inChain, body⟩
    · exact .inr ⟨c, wider inSupertypes, body⟩
  · have only : t.superclassChain upper ⊆ t.supertypes lower := by
      rw [chain]
      exact List.cons_subset.2 ⟨listed, List.nil_subset _⟩
    have wider := supertypes_subset reached only
    rw [isSome_body?_iff] at found ⊢
    rcases found with ⟨c, inChain, body⟩ | ⟨c, inSupertypes, body⟩
    · obtain rfl : c = e := by simpa [chain] using inChain
      exact .inr ⟨c, listed, isInterface, body⟩
    · exact .inr ⟨c, wider inSupertypes, body⟩

theorem WellKinded.keys_layout_subset (fit : t.WellKinded) (reached : t.Reachable)
    (known : t.get? lower = some d) (below : t.isSubtype lower upper = true)
    (found : t.get? upper = some e) (isClass : e.isInterface = false) :
    (t.layout upper).keys ⊆ (t.layout lower).keys := by
  intro name isField
  rw [mem_keys_layout_iff] at isField ⊢
  obtain ⟨c, inChain, declared⟩ := isField
  rcases fit.of_isSubtype reached known below with rfl | chain | ⟨i, _, isInterface, chain⟩
  · rw [superclassChain_object reached, List.mem_singleton] at inChain
    subst inChain
    cases declared
  · exact ⟨c, chain inChain, declared⟩
  · have isOnly : e ∈ t.superclassChain upper := mem_superclassChain_self reached found
    rw [chain, List.mem_singleton] at isOnly
    rw [isOnly, isInterface] at isClass
    cases isClass

end ClassTable

/-! ### Use of an object -/

section Use

variable {t : ClassTable} {index : UInt32} {call : Call} {stack : Stack} {h : Heap} {ref : Ref}
  {owner name : String}

theorem Machine.step_getField_of_hasField (present : h.hasField ref name = true)
    (type : TypeName) :
    ∃ content,
      Machine.step t index call (.ref (.object ref) :: stack) (.getField owner name type) h =
        (.ok (.goOn (content :: stack)), h) := by
  obtain ⟨content, found⟩ := (h.hasField_iff ref name).1 present
  have fetches : FieldTarget.fetch ⟨owner, name, type⟩ (.object ref) h = (.ok content, h) := by
    rw [FieldTarget.fetch, FieldTarget.holder, Action.ofExcept_ok, pure_bind,
      Action.bind_apply_ok _ (Action.field?_apply ref name h), found]
    rfl
  refine ⟨content, ?_⟩
  rw [step_getField ⟨owner, name, type⟩, Action.bind_apply_ok _ fetches]
  rfl

theorem Machine.step_putField_of_hasField (present : h.hasField ref name = true)
    (type : TypeName) (slot : Slot) :
    ∃ stored, Machine.step t index call (slot :: .ref (.object ref) :: stack)
      (.putField owner name type) h = (.ok (.goOn stack), stored) := by
  obtain ⟨stored, stores⟩ : ∃ stored, h.store? ref name slot = some stored :=
    Heap.exists_store?_iff.2 ((h.hasField_iff ref name).1 present)
  have puts : FieldTarget.put ⟨owner, name, type⟩ (.object ref) slot h = (.ok (), stored) := by
    rw [FieldTarget.put, FieldTarget.holder, Action.ofExcept_ok, pure_bind,
      Action.bind_apply_ok _ (Action.store_apply ref name slot h), stores]
    rfl
  refine ⟨stored, ?_⟩
  rw [step_putField ⟨owner, name, type⟩, Action.bind_apply_ok _ puts]
  rfl

end Use

namespace ClassTable

variable {t : ClassTable} {lower upper : String} {before after : Heap} {ref : Ref}

/-- A call lacks a method only if the class of the receiver has no body for it, or the body that ran
lacked one. -/
theorem invoke_noSuchMethod {kind : CallKind} {owner cls text : String} {method : Signature}
    {args : List Slot} (has : (t.body? ref.cls method.name method.params).isSome = true)
    (fails : t.invoke kind owner method (.object ref) args before =
      (.error (.noSuchMethod cls text), after)) :
    t.Ran method (.object ref) args before (.error (.noSuchMethod cls text)) after := by
  rcases invoke_error fails with own | ran
  · cases own with
    | noBody isObject none =>
      cases isObject
      rw [none] at has
      cases has
  · exact ran

/-- In a table that is well kinded, an object passes the cast to every supertype of its class. It
has each field that an instance of the supertype is made with, and its class has a body for each
method that the supertype has one for. Fields are never added to or taken from an object, so from
then on reading and writing such a field succeeds; and a call of such a method lacks no method,
unless the body that runs lacks one itself. -/
theorem newInstance_substitutes (reached : t.Reachable) (fit : t.WellKinded)
    (made : t.newInstance lower before = (.ok ref, after))
    (below : t.isSubtype lower upper = true) :
    (∀ other otherBefore otherAfter, t.newInstance upper otherBefore = (.ok other, otherAfter) →
      ∀ name, otherAfter.hasField other name = true → after.hasField ref name = true) ∧
    (∀ name params, (t.body? upper name params).isSome = true →
      (t.body? lower name params).isSome = true) ∧
    t.cast (.object ref) (.named upper) = .ok (.ref (.object ref)) ∧
    ∀ later : Heap, (∀ name, after.hasField ref name = true → later.hasField ref name = true) →
      (∀ other otherBefore otherAfter, t.newInstance upper otherBefore = (.ok other, otherAfter) →
        ∀ name, otherAfter.hasField other name = true → ∀ index call stack owner type slot,
          (∃ content, Machine.step t index call (.ref (.object ref) :: stack)
            (.getField owner name type) later = (.ok (.goOn (content :: stack)), later)) ∧
          ∃ stored, Machine.step t index call (slot :: .ref (.object ref) :: stack)
            (.putField owner name type) later = (.ok (.goOn stack), stored)) ∧
      ∀ kind owner (method : Signature) args cls text final,
        (t.body? upper method.name method.params).isSome = true →
        t.invoke kind owner method (.object ref) args later =
          (.error (.noSuchMethod cls text), final) →
        t.Ran method (.object ref) args later (.error (.noSuchMethod cls text)) final := by
  have names := keys_of_newInstance made
  obtain ⟨rfl, rfl, d, known, _⟩ := newInstance_ok made
  have fields : ∀ other otherBefore otherAfter,
      t.newInstance upper otherBefore = (.ok other, otherAfter) → ∀ name,
        otherAfter.hasField other name = true →
          (t.withNew lower before).hasField (before.next lower) name = true := by
    intro other otherBefore otherAfter makes name isField
    rw [hasField_iff_mem_keys, keys_of_newInstance makes] at isField
    obtain ⟨_, _, e, found, isClass⟩ := newInstance_ok makes
    rw [hasField_iff_mem_keys, names]
    exact fit.keys_layout_subset reached known below found isClass isField
  refine ⟨fields, fun name params => fit.body?_isSome reached known below,
    cast_object_iff.2 ⟨below, rfl⟩, fun later kept => ⟨?_, ?_⟩⟩
  · intro other otherBefore otherAfter makes name isField index call stack owner type slot
    have present := kept name (fields other otherBefore otherAfter makes name isField)
    exact ⟨Machine.step_getField_of_hasField present type,
      Machine.step_putField_of_hasField present type slot⟩
  · intro kind owner method args cls text final has fails
    exact invoke_noSuchMethod (fit.body?_isSome reached known below has) fails

end ClassTable

/-! ### Two small tables -/

namespace Shapes

def describe : Signature := ⟨"describe", [], .named Builtin.string⟩

def shape : ClassDef :=
  { ClassDef.ofClass "Shape" with
    fields := [⟨"area", .int 0⟩]
    methods := [⟨describe, some fun _ _ => return .ref (.str "a shape")⟩] }

def square : ClassDef := (ClassDef.ofClass "Square").extending "Shape"

/-- A class that names the class above it as an interface. -/
def mislabeled : ClassDef := { ClassDef.ofClass "Square" with interfaces := ["Shape"] }

def classes : ClassTable := ⟨square :: shape :: ClassTable.builtin.defs⟩

def mislabeledClasses : ClassTable := ⟨mislabeled :: shape :: ClassTable.builtin.defs⟩

theorem define_shape :
    ClassTable.builtin.define shape = .ok ⟨shape :: ClassTable.builtin.defs⟩ := rfl

theorem reachable_classes : classes.Reachable :=
  .define (.define .builtin define_shape) (d := square) rfl

theorem reachable_mislabeledClasses : mislabeledClasses.Reachable :=
  .define (.define .builtin define_shape) (d := mislabeled) rfl

theorem wellKinded_classes : classes.WellKinded := by
  have withShape := ClassTable.wellKinded_builtin.define (d := shape)
    (by simp [ClassTable.KindsFit, shape, ClassDef.ofClass]) define_shape
  exact withShape.define (d := square)
    (by simp [ClassTable.KindsFit, square, ClassDef.extending, ClassDef.ofClass]) rfl

/-- A new object of a class of these tables, on the empty heap. -/
def first (cls : String) : Ref := ⟨0, cls⟩

/-- A square has the area of a shape, whatever is stored there, and is described as a shape. -/
theorem newInstance_substitutes_square :
    classes.newInstance "Square" .empty =
        (.ok (first "Square"), ⟨#[OrderedMap.ofList [("area", .int 0)]]⟩) ∧
      classes.isSubtype "Square" "Shape" = true ∧
      (classes.body? "Square" "describe" []).isSome = true ∧
      ∃ content, Machine.step classes 0 ⟨.null, .multi [], false⟩ [.ref (.object (first "Square"))]
        (.getField "Shape" "area" (.primitive .int)) ⟨#[OrderedMap.ofList [("area", .int 4)]]⟩ =
          (.ok (.goOn [content]), ⟨#[OrderedMap.ofList [("area", .int 4)]]⟩) := by
  have made : classes.newInstance "Square" .empty =
      (.ok (first "Square"), ⟨#[OrderedMap.ofList [("area", .int 0)]]⟩) := rfl
  have below : classes.isSubtype "Square" "Shape" = true := by decide
  have makes : classes.newInstance "Shape" .empty =
      (.ok (first "Shape"), ⟨#[OrderedMap.ofList [("area", .int 0)]]⟩) := rfl
  obtain ⟨_, bodies, _, used⟩ := ClassTable.newInstance_substitutes reachable_classes
    wellKinded_classes made below
  have kept : ∀ name,
      Heap.hasField ⟨#[OrderedMap.ofList [("area", .int 0)]]⟩ (first "Square") name = true →
        Heap.hasField ⟨#[OrderedMap.ofList [("area", .int 4)]]⟩ (first "Square") name = true := by
    intro name
    rw [ClassTable.hasField_iff_mem_keys, ClassTable.hasField_iff_mem_keys]
    exact id
  obtain ⟨accessed, _⟩ := used ⟨#[OrderedMap.ofList [("area", .int 4)]]⟩ kept
  exact ⟨made, below, bodies "describe" [] rfl,
    (accessed _ _ _ makes "area" rfl 0 ⟨.null, .multi [], false⟩ [] "Shape" (.primitive .int)
      .null).1⟩

/-- A square that only names the class of shapes as an interface is a subtype of it and passes the
cast, but has neither the field nor the method of a shape: reading the one and calling the other
fails. -/
theorem mislabeled_lacks_shape :
    mislabeledClasses.Reachable ∧
      mislabeledClasses.newInstance "Square" .empty =
        (.ok (first "Square"), ⟨#[OrderedMap.empty]⟩) ∧
      mislabeledClasses.isSubtype "Square" "Shape" = true ∧
      mislabeledClasses.cast (.object (first "Square")) (.named "Shape") =
        .ok (.ref (.object (first "Square"))) ∧
      mislabeledClasses.newInstance "Shape" .empty =
        (.ok (first "Shape"), ⟨#[OrderedMap.ofList [("area", .int 0)]]⟩) ∧
      Heap.hasField ⟨#[OrderedMap.ofList [("area", .int 0)]]⟩ (first "Shape") "area" = true ∧
      Heap.hasField ⟨#[OrderedMap.empty]⟩ (first "Square") "area" = false ∧
      (mislabeledClasses.body? "Shape" "describe" []).isSome = true ∧
      (mislabeledClasses.body? "Square" "describe" []).isSome = false ∧
      Machine.step mislabeledClasses 0 ⟨.null, .multi [], false⟩
        [.ref (.object (first "Square"))] (.getField "Shape" "area" (.primitive .int))
        ⟨#[OrderedMap.empty]⟩ =
          (.error (.noSuchField "Shape" "area"), ⟨#[OrderedMap.empty]⟩) ∧
      mislabeledClasses.invoke .virtual "Shape" describe (.object (first "Square")) []
        ⟨#[OrderedMap.empty]⟩ =
          (.error (.noSuchMethod "Square" describe.text), ⟨#[OrderedMap.empty]⟩) :=
  ⟨reachable_mislabeledClasses, rfl, by decide, rfl, rfl, rfl, rfl, rfl, rfl, rfl, rfl⟩

end Shapes

end BeanDispatch
