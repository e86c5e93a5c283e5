import BeanDispatch.Proofs.DirectCall

/-! Reads and writes of fields, exactly. A read or a write succeeds if the target is an object of a
subtype of the owner that has the field, and the content or the argument fits the declared type; in
every other case it fails and leaves the heap alone. `read_eq_ok_iff` and `write_eq_ok_iff` say this
once, with all that a success changes, so that runs of reads and writes need no look at the steps.
What a write stores a read of the same field gives back. -/

namespace BeanDispatch

/-! ### The heap -/

namespace Heap

variable {h stored : Heap} {ref : Ref} {name : String} {slot : Slot}

theorem exists_store?_iff :
    (∃ stored, h.store? ref name slot = some stored) ↔ ∃ old, h.field? ref name = some old := by
  rw [← Option.ne_none_iff_exists', ← Option.ne_none_iff_exists']
  exact not_congr (store?_eq_none_iff h ref name slot)

theorem size_store? (done : h.store? ref name slot = some stored) :
    stored.objects.size = h.objects.size := by
  obtain ⟨fields, _, rfl⟩ := Option.map_eq_some_iff.1 done
  exact Array.size_setIfInBounds

theorem lt_size_of_field? (present : h.field? ref name = some slot) :
    ref.id < h.objects.size := by
  refine Nat.lt_of_not_le fun outside => ?_
  have unknown : h.objects[ref.id]? = none := Array.getElem?_eq_none outside
  simp [field?, fields, unknown, OrderedMap.get?, OrderedMap.empty, lookupEntry] at present

theorem keys_store? (done : h.store? ref name slot = some stored) (other : Ref) :
    (stored.fields other).keys = (h.fields other).keys := by
  have present : name ∈ (h.fields ref).keys :=
    ((h.fields ref).mem_keys_iff name).2 (exists_store?_iff.1 ⟨stored, done⟩)
  rw [fields_store? done]
  split
  · rename_i same
    have here : h.fields other = h.fields ref := by rw [fields, fields, same]
    rw [OrderedMap.keys_insert, here, if_pos present]
  · rfl

end Heap

/-! ### Casts -/

namespace ClassTable

variable {t : ClassTable}

theorem isSubtype_refl (t : ClassTable) (name : String) : t.isSubtype name name = true := by
  rw [isSubtype]
  cases t.defs <;> simp [isSubtypeIn]

theorem cast_object_iff {ref : Ref} {owner : String} {slot : Slot} :
    t.cast (.object ref) (.named owner) = .ok slot ↔
      t.isSubtype ref.cls owner = true ∧ slot = .ref (.object ref) := by
  by_cases sub : t.isSubtype ref.cls owner = true
  · simp [cast, isInstance, Value.isNull, Value.className, sub, eq_comm]
  · simp [cast, isInstance, Value.isNull, Value.className, sub]

theorem isInstance_boxed_of_cast {value : Value} {type : TypeName} {slot : Slot}
    (casts : t.cast value type = .ok slot) :
    value.isNull = true ∨ t.isInstance value type.boxed = true := by
  cases type with
  | void => cases casts
  | named name =>
    simp only [cast] at casts
    split at casts
    · rename_i fits
      exact Bool.or_eq_true_iff.1 fits
    · cases casts
  | primitive kind =>
    simp only [cast] at casts
    split at casts
    · rename_i unboxed found
      right
      cases value <;> cases kind <;> cases found <;>
        simp [TypeName.boxed, isInstance, Value.isNull, Value.className, Primitive.wrapper,
          isSubtype_refl]
    · split at casts <;> cases casts

end ClassTable

/-! ### Reads and writes -/

namespace FieldTarget

variable {f : FieldTarget} {t : ClassTable} {target arg value : Value} {h after : Heap}

/-- What is cast to the type of a field is read as the value that it was. -/
theorem valueOf_of_cast {slot : Slot} (casts : t.cast arg f.type = .ok slot) :
    f.valueOf slot = .ok arg := by
  cases type : f.type with
  | void =>
    rw [type] at casts
    cases casts
  | named name =>
    rw [type] at casts
    rw [ClassTable.cast_named casts, valueOf, type]
  | primitive kind =>
    rw [type] at casts
    simp only [ClassTable.cast] at casts
    split at casts
    · rename_i unboxed found
      cases casts
      obtain ⟨boxed, isKind⟩ := Slot.boxed_of_unbox? found
      simp only [valueOf, type]
      rw [if_pos isKind, boxed]
    · split at casts <;> cases casts

/-- A read succeeds on objects of a subtype of the owner that have the field with a content of the
declared type, and leaves the heap alone. -/
theorem read_eq_ok_iff :
    f.read t target h = (.ok value, after) ↔
      after = h ∧ ∃ ref slot, target = .object ref ∧ t.isSubtype ref.cls f.owner = true ∧
        h.field? ref f.name = some slot ∧ f.valueOf slot = .ok value := by
  constructor
  · intro reads
    have kept : after = h := by rw [← read_heap (f := f) (t := t) target h, reads]
    obtain ⟨receiver, mid, casts, rest⟩ := Action.exists_of_bind_apply reads
    obtain ⟨slot, last, fetches, boxes⟩ := Action.exists_of_bind_apply rest
    cases casted : t.cast target (.named f.owner) with
    | error fault =>
      rw [casted] at casts
      cases casts
    | ok found =>
      rw [casted] at casts
      cases casts
      rcases fetch_outcome (f := f) target h with ⟨fault, fails⟩ | ⟨ref, held, rfl, present, gives⟩
      · rw [fails] at fetches
        cases fetches
      · rw [gives] at fetches
        cases fetches
        exact ⟨kept, ref, _, rfl, (ClassTable.cast_object_iff.1 casted).1, present,
          congrArg Prod.fst boxes⟩
  · rintro ⟨rfl, ref, slot, rfl, sub, present, boxes⟩
    have casts : t.cast (.object ref) (.named f.owner) = .ok (.ref (.object ref)) :=
      ClassTable.cast_object_iff.2 ⟨sub, rfl⟩
    have fetches : f.fetch (.object ref) after = (.ok slot, after) := by
      rw [fetch, holder, Action.ofExcept_ok, pure_bind,
        Action.bind_apply_ok _ (Action.field?_apply ref f.name after), present]
      rfl
    rw [read, casts, Action.ofExcept_ok, pure_bind, Action.bind_apply_ok _ fetches, boxes]
    rfl

/-- A write succeeds on objects of a subtype of the owner that have the field, for arguments that
can be cast to the declared type. It stores the cast argument and yields null. -/
theorem write_eq_ok_iff :
    f.write t target arg h = (.ok value, after) ↔
      value = .null ∧ ∃ ref slot, target = .object ref ∧ t.isSubtype ref.cls f.owner = true ∧
        t.cast arg f.type = .ok slot ∧ h.store? ref f.name slot = some after := by
  constructor
  · intro writes
    obtain ⟨receiver, mid, casts, rest⟩ := Action.exists_of_bind_apply writes
    cases casted : t.cast target (.named f.owner) with
    | error fault =>
      rw [casted] at casts
      cases casts
    | ok found =>
      rcases write_outcome (f := f) (t := t) target arg h with
        ⟨fault, fails⟩ | ⟨ref, slot, stored, rfl, fits, done, gives⟩
      · rw [fails] at writes
        cases writes
      · rw [gives] at writes
        cases writes
        exact ⟨rfl, ref, slot, rfl, (ClassTable.cast_object_iff.1 casted).1, fits, done⟩
  · rintro ⟨rfl, ref, slot, rfl, sub, fits, done⟩
    have casts : t.cast (.object ref) (.named f.owner) = .ok (.ref (.object ref)) :=
      ClassTable.cast_object_iff.2 ⟨sub, rfl⟩
    have puts : f.put (.object ref) slot h = (.ok (), after) := by
      rw [put, holder, Action.ofExcept_ok, pure_bind,
        Action.bind_apply_ok _ (Action.store_apply ref f.name slot h), done]
      rfl
    rw [write, casts, fits, Action.ofExcept_ok, pure_bind, Action.ofExcept_ok, pure_bind,
      Action.bind_apply_ok _ puts]
    rfl

theorem write_error {fault : Fault} (fails : f.write t target arg h = (.error fault, after)) :
    after = h := by
  rcases write_outcome (f := f) (t := t) target arg h with
    ⟨other, refused⟩ | ⟨ref, slot, stored, _, _, _, gives⟩
  · rw [refused] at fails
    cases fails
    rfl
  · rw [gives] at fails
    cases fails

end FieldTarget

end BeanDispatch
