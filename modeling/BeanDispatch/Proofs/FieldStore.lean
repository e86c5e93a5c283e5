import BeanDispatch.Proofs.FieldAccess
import BeanDispatch.Proofs.SingleDispatch

/-! Runs of field dispatches. Reading and writing fields through their indices is a map store: an
object keeps its class, which is part of every reference to it, and its list of fields, and a field
holds what the last write to it that succeeded has stored. `FieldStep` says once what one dispatch
can do; what a run does follows by induction on the dispatches, the heap of the rest being the one
that the first leaves. -/

namespace BeanDispatch

structure SingleCall where
  index : UInt32
  target : Value
  arg : Value

/-- A write to a field of an object that succeeded. -/
structure FieldWrite where
  field : FieldTarget
  holder : Ref
  value : Value

namespace FieldWrite

/-- Whether a write went to this field of this object. -/
def hits (w : FieldWrite) (ref : Ref) (name : String) : Bool :=
  w.holder.id = ref.id && w.field.name = name

/-- The last of some writes that went to this field of this object. -/
def last? (writes : List FieldWrite) (ref : Ref) (name : String) : Option FieldWrite :=
  (writes.filter fun w => w.hits ref name).getLast?

/-- The object has a subtype of the owner as its class, and the value can be cast to the type. -/
def Fits (t : ClassTable) (w : FieldWrite) : Prop :=
  t.isSubtype w.holder.cls w.field.owner = true ∧ ∃ slot, t.cast w.value w.field.type = .ok slot

/-- What a field holds after some writes to a heap. -/
def contentAfter (t : ClassTable) (h : Heap) (writes : List FieldWrite) (ref : Ref)
    (name : String) : Option Slot :=
  match last? writes ref name with
  | some w => (t.cast w.value w.field.type).toOption
  | none => h.field? ref name

variable {writes : List FieldWrite} {ref : Ref} {name : String} {w : FieldWrite}

theorem last?_cons (w : FieldWrite) (writes : List FieldWrite) (ref : Ref) (name : String) :
    last? (w :: writes) ref name =
      (last? writes ref name).or (if w.hits ref name then some w else none) := by
  rw [last?, last?, List.filter_cons]
  split
  · rename_i hit
    rw [List.getLast?_cons]
    cases (writes.filter fun v => v.hits ref name).getLast? <;> rfl
  · rw [Option.or_none]

theorem mem_of_last? (isLast : last? writes ref name = some w) :
    w ∈ writes ∧ w.holder.id = ref.id ∧ w.field.name = name := by
  have member := List.mem_of_getLast? isLast
  obtain ⟨listed, hit⟩ := List.mem_filter.1 member
  rw [hits, Bool.and_eq_true, decide_eq_true_iff, decide_eq_true_iff] at hit
  exact ⟨listed, hit⟩

/-- A write that comes first is what the later ones find on the heap. -/
theorem contentAfter_cons {t : ClassTable} {h stored : Heap} {slot : Slot}
    (casts : t.cast w.value w.field.type = .ok slot)
    (done : h.store? w.holder w.field.name slot = some stored) (writes : List FieldWrite)
    (ref : Ref) (name : String) :
    contentAfter t h (w :: writes) ref name = contentAfter t stored writes ref name := by
  rw [contentAfter, contentAfter, last?_cons]
  -- a later write to the field decides; without one the field is as this write leaves it
  cases last? writes ref name with
  | some later => rfl
  | none =>
    rw [Option.none_or, Heap.field?_store? done]
    by_cases hit : w.hits ref name = true
    · have here : ref.id = w.holder.id ∧ w.field.name = name := by
        rw [hits, Bool.and_eq_true, decide_eq_true_iff, decide_eq_true_iff] at hit
        exact ⟨hit.1.symm, hit.2⟩
      rw [if_pos hit, if_pos here]
      dsimp only
      rw [casts]
      rfl
    · have elsewhere : ¬(ref.id = w.holder.id ∧ w.field.name = name) := by
        intro here
        exact hit (by simp [hits, here])
      rw [if_neg hit, if_neg elsewhere]

end FieldWrite

namespace Catalog

/-- The index is that of a field, to read or to write. -/
def IsField (c : Catalog) (index : UInt32) : Prop :=
  ∃ f, c.get? index = some (.fieldGet f) ∨ c.get? index = some (.fieldSet f)

/-- The write that a dispatch with this result was, if it was one and succeeded. -/
def written? (c : Catalog) (call : SingleCall) (result : Except Fault Value) :
    Option FieldWrite :=
  match c.get? call.index, call.target, result with
  | some (.fieldSet f), .object ref, .ok _ => some ⟨f, ref, call.arg⟩
  | _, _, _ => none

/-- The writes among some dispatches with their results, in order. -/
def writes (c : Catalog) (log : List (SingleCall × Except Fault Value)) : List FieldWrite :=
  log.filterMap fun entry => c.written? entry.1 entry.2

theorem writes_cons (c : Catalog) (call : SingleCall) (result : Except Fault Value)
    (log : List (SingleCall × Except Fault Value)) :
    c.writes ((call, result) :: log) = (c.written? call result).toList ++ c.writes log := by
  rw [writes, List.filterMap_cons]
  cases c.written? call result <;> rfl

end Catalog

/-- How the dispatch of a field can come out on the heap `before`. -/
inductive FieldStep (c : Catalog) (t : ClassTable) (call : SingleCall) (before : Heap) :
    Except Fault Value × Heap → Prop
  | failed (fault : Fault) : FieldStep c t call before (.error fault, before)
  | read {f : FieldTarget} (isRead : c.get? call.index = some (.fieldGet f)) (value : Value) :
    FieldStep c t call before (.ok value, before)
  | wrote {f : FieldTarget} (isWrite : c.get? call.index = some (.fieldSet f)) {ref : Ref}
    (isObject : call.target = .object ref) (sub : t.isSubtype ref.cls f.owner = true) {slot : Slot}
    (casts : t.cast call.arg f.type = .ok slot) {after : Heap}
    (done : before.store? ref f.name slot = some after) :
    FieldStep c t call before (.ok .null, after)

namespace RoutineSet

def perform (s : RoutineSet) (t : ClassTable) (call : SingleCall) : Action Fault Value :=
  s.dispatchSingle t call.index call.target call.arg

/-- Performs some dispatches one after the other, whether they fail or not; the results in order
and the heap after the last. -/
def performAll (s : RoutineSet) (t : ClassTable) :
    List SingleCall → Heap → List (SingleCall × Except Fault Value) × Heap
  | [], h => ([], h)
  | call :: calls, h =>
    let first := s.perform t call h
    let rest := s.performAll t calls first.2
    ((call, first.1) :: rest.1, rest.2)

variable {c : Catalog} {options : EmitOptions} {s : RoutineSet} {t : ClassTable}

/-! ### One dispatch -/

theorem perform_read (emitted : c.emit options = .ok s) {call : SingleCall} {f : FieldTarget}
    (isRead : c.get? call.index = some (.fieldGet f)) (t : ClassTable) :
    s.perform t call = f.read t call.target :=
  (dispatchSingle_access emitted isRead rfl).2 t call.target call.arg

theorem perform_write (emitted : c.emit options = .ok s) {call : SingleCall} {f : FieldTarget}
    (isWrite : c.get? call.index = some (.fieldSet f)) (t : ClassTable) :
    s.perform t call = f.write t call.target call.arg :=
  (dispatchSingle_access emitted isWrite rfl).2 t call.target call.arg

theorem perform_step (emitted : c.emit options = .ok s) {call : SingleCall}
    (isField : c.IsField call.index) (t : ClassTable) (h : Heap) :
    FieldStep c t call h (s.perform t call h) := by
  obtain ⟨f, isRead | isWrite⟩ := isField
  · rw [perform_read emitted isRead]
    rcases reads : f.read t call.target h with ⟨outcome, after⟩
    have kept : after = h := by rw [← f.read_heap (t := t) call.target h, reads]
    subst kept
    cases outcome with
    | error fault => exact .failed fault
    | ok value => exact .read isRead value
  · rw [perform_write emitted isWrite]
    rcases writes : f.write t call.target call.arg h with ⟨outcome, after⟩
    cases outcome with
    | error fault =>
      rw [FieldTarget.write_error writes]
      exact .failed fault
    | ok value =>
      obtain ⟨rfl, ref, slot, isObject, sub, casts, done⟩ := FieldTarget.write_eq_ok_iff.1 writes
      exact .wrote isWrite isObject sub casts done

end RoutineSet

namespace FieldStep

variable {c : Catalog} {t : ClassTable} {call : SingleCall} {before : Heap}
  {outcome : Except Fault Value × Heap}

/-- No dispatch of a field makes an object or changes a list of field names. -/
theorem keeps_layout (step : FieldStep c t call before outcome) :
    outcome.2.objects.size = before.objects.size ∧
      ∀ ref, (outcome.2.fields ref).keys = (before.fields ref).keys := by
  cases step with
  | failed fault => exact ⟨rfl, fun _ => rfl⟩
  | read isRead value => exact ⟨rfl, fun _ => rfl⟩
  | wrote isWrite isObject sub casts done =>
    exact ⟨Heap.size_store? done, Heap.keys_store? done⟩

/-- A dispatch that failed and a read are no write, and they leave the heap alone; any other one is
a write of an object's field that yields null. -/
theorem cases_written (step : FieldStep c t call before outcome) :
    (c.written? call outcome.1 = none ∧ outcome.2 = before) ∨
      ∃ w slot, c.written? call outcome.1 = some w ∧ outcome.1 = .ok .null ∧
        t.isSubtype w.holder.cls w.field.owner = true ∧
        t.cast w.value w.field.type = .ok slot ∧
        before.store? w.holder w.field.name slot = some outcome.2 := by
  cases step with
  | failed fault =>
    refine .inl ⟨?_, rfl⟩
    unfold Catalog.written?
    split
    · rename_i failed
      cases failed
    · rfl
  | read isRead value =>
    refine .inl ⟨?_, rfl⟩
    simp only [Catalog.written?, isRead]
  | @wrote f isWrite ref isObject sub slot casts after done =>
    refine .inr ⟨⟨f, ref, call.arg⟩, slot, ?_, rfl, sub, casts, done⟩
    simp only [Catalog.written?, isWrite, isObject]

end FieldStep

namespace RoutineSet

variable {c : Catalog} {options : EmitOptions} {s : RoutineSet} {t : ClassTable}

/-! ### A run -/

theorem performAll_keeps_layout (emitted : c.emit options = .ok s) (t : ClassTable) (h : Heap)
    {calls : List SingleCall} (fields : ∀ call ∈ calls, c.IsField call.index) :
    (s.performAll t calls h).2.objects.size = h.objects.size ∧
      ∀ ref, ((s.performAll t calls h).2.fields ref).keys = (h.fields ref).keys := by
  induction calls generalizing h with
  | nil => exact ⟨rfl, fun _ => rfl⟩
  | cons call calls ih =>
    obtain ⟨isField, rest⟩ := List.forall_mem_cons.1 fields
    obtain ⟨size, keys⟩ := (perform_step emitted isField t h).keeps_layout
    obtain ⟨sizeRest, keysRest⟩ := ih (s.perform t call h).2 rest
    exact ⟨sizeRest.trans size, fun ref => (keysRest ref).trans (keys ref)⟩

/-- The writes of a run fit, and a field holds what they make of it. -/
theorem performAll_contents (emitted : c.emit options = .ok s) (t : ClassTable) (h : Heap)
    {calls : List SingleCall} (fields : ∀ call ∈ calls, c.IsField call.index) :
    (∀ w ∈ c.writes (s.performAll t calls h).1, w.Fits t) ∧
      ∀ ref name, (s.performAll t calls h).2.field? ref name =
        FieldWrite.contentAfter t h (c.writes (s.performAll t calls h).1) ref name := by
  induction calls generalizing h with
  | nil => exact ⟨fun w member => absurd member List.not_mem_nil, fun _ _ => rfl⟩
  | cons call calls ih =>
    obtain ⟨isField, rest⟩ := List.forall_mem_cons.1 fields
    have step := perform_step emitted isField t h
    obtain ⟨fit, contents⟩ := ih (s.perform t call h).2 rest
    rw [performAll]
    dsimp only
    rw [Catalog.writes_cons]
    rcases step.cases_written with ⟨none, kept⟩ | ⟨w, slot, wrote, _, sub, casts, done⟩
    · rw [none]
      rw [kept] at fit contents ⊢
      exact ⟨fit, contents⟩
    · rw [wrote]
      refine ⟨List.forall_mem_cons.2 ⟨⟨sub, slot, casts⟩, fit⟩, fun ref name => ?_⟩
      rw [contents]
      exact (FieldWrite.contentAfter_cons casts done _ ref name).symm

/-- What the last write to a field has stored is there, and a read of the same field gives back the
value that was written. -/
theorem performAll_last (emitted : c.emit options = .ok s) (t : ClassTable) (h : Heap)
    {calls : List SingleCall} (fields : ∀ call ∈ calls, c.IsField call.index) {ref : Ref}
    {name : String} {w : FieldWrite}
    (isLast : FieldWrite.last? (c.writes (s.performAll t calls h).1) ref name = some w) :
    (∃ slot, t.cast w.value w.field.type = .ok slot ∧
      (s.performAll t calls h).2.field? ref name = some slot) ∧
      w.field.read t (.object w.holder) (s.performAll t calls h).2 =
        (.ok w.value, (s.performAll t calls h).2) := by
  obtain ⟨fit, contents⟩ := performAll_contents emitted t h fields
  obtain ⟨listed, sameObject, sameField⟩ := FieldWrite.mem_of_last? isLast
  obtain ⟨sub, slot, casts⟩ := fit w listed
  have holds : (s.performAll t calls h).2.field? ref name = some slot := by
    rw [contents, FieldWrite.contentAfter, isLast]
    dsimp only
    rw [casts]
    rfl
  refine ⟨⟨slot, casts, holds⟩,
    FieldTarget.read_eq_ok_iff.2 ⟨rfl, w.holder, slot, rfl, sub, ?_, ?_⟩⟩
  · rw [sameField, ← holds, Heap.field?, Heap.field?, Heap.fields, Heap.fields, sameObject]
  · exact FieldTarget.valueOf_of_cast casts

/-- A run of reads and writes of fields is a run of a map store. No object is made and none changes
its list of fields. A field that no write went to is as before, and any other one holds the cast
value of the last write, which a read of the same field gives back as it was. A dispatch that fails
and a read change nothing at all, and every other write yields null and counts. -/
theorem performAll_refines_map (emitted : c.emit options = .ok s) (t : ClassTable) (h : Heap)
    {calls : List SingleCall} (fields : ∀ call ∈ calls, c.IsField call.index) :
    let after := (s.performAll t calls h).2
    let last? := FieldWrite.last? (c.writes (s.performAll t calls h).1)
    (after.objects.size = h.objects.size ∧
      ∀ ref, (after.fields ref).keys = (h.fields ref).keys) ∧
    (∀ ref name, last? ref name = none → after.field? ref name = h.field? ref name) ∧
    (∀ ref name w, last? ref name = some w →
      (∃ slot, t.cast w.value w.field.type = .ok slot ∧ after.field? ref name = some slot) ∧
      ∀ index arg, c.get? index = some (.fieldGet w.field) →
        s.dispatchSingle t index (.object w.holder) arg after = (.ok w.value, after)) ∧
    ∀ call before, c.IsField call.index →
      ((∃ fault, (s.perform t call before).1 = .error fault) ∨
        (∃ f, c.get? call.index = some (.fieldGet f)) → (s.perform t call before).2 = before) ∧
      ∀ f value, c.get? call.index = some (.fieldSet f) →
        (s.perform t call before).1 = .ok value → value = .null ∧ ∃ ref,
          call.target = .object ref ∧ c.written? call (.ok value) = some ⟨f, ref, call.arg⟩ := by
  intro after last?
  refine ⟨performAll_keeps_layout emitted t h fields, fun ref name none => ?_,
    fun ref name w isLast => ?_, fun call before isField => ⟨fun quiet => ?_, ?_⟩⟩
  · show (s.performAll t calls h).2.field? ref name = _
    rw [(performAll_contents emitted t h fields).2, FieldWrite.contentAfter]
    change FieldWrite.last? _ ref name = _ at none
    rw [none]
  · obtain ⟨holds, reads⟩ := performAll_last emitted t h fields isLast
    refine ⟨holds, fun index arg isRead => ?_⟩
    rw [(dispatchSingle_access emitted isRead rfl).2]
    exact reads
  · have step := perform_step emitted isField t before
    generalize s.perform t call before = outcome at step quiet ⊢
    cases step with
    | failed fault => rfl
    | read isRead value => rfl
    | wrote isWrite isObject sub casts done =>
      rcases quiet with ⟨fault, fails⟩ | ⟨f, isRead⟩
      · cases fails
      · rw [isWrite] at isRead
        cases isRead
  · intro f value isWrite succeeds
    have step := perform_step emitted isField t before
    generalize s.perform t call before = outcome at step succeeds
    cases step with
    | failed fault => cases succeeds
    | read isRead other =>
      rw [isWrite] at isRead
      cases isRead
    | @wrote g isAlsoWrite ref isObject sub slot casts after done =>
      rw [isWrite] at isAlsoWrite
      cases isAlsoWrite
      cases succeeds
      refine ⟨rfl, ref, isObject, ?_⟩
      simp only [Catalog.written?, isWrite, isObject]

/-- Seven is written, null is refused, and seven is read. -/
theorem performAll_refines_map_counter : ∃ s, Counter.catalog.emit {} = .ok s ∧
    let calls : List SingleCall := [⟨1, Counter.counter, .int 7⟩, ⟨1, Counter.counter, .null⟩]
    let after := (s.performAll Counter.classes calls Counter.heap).2
    after.field? ⟨0, "Counter"⟩ "count" = some (.int 7) ∧
      s.dispatchSingle Counter.classes 0 Counter.counter .null after = (.ok (.int 7), after) := by
  obtain ⟨s, emitted⟩ : ∃ s, Counter.catalog.emit {} = .ok s := ⟨_, rfl⟩
  have get : Counter.catalog.get? 0 = some (.fieldGet Counter.count) := rfl
  have set : Counter.catalog.get? 1 = some (.fieldSet Counter.count) := rfl
  refine ⟨s, emitted, ?_⟩
  intro calls after
  have fields : ∀ call ∈ calls, Counter.catalog.IsField call.index := by
    intro call member
    refine ⟨Counter.count, .inr ?_⟩
    rcases List.mem_cons.1 member with rfl | later
    · exact set
    · rcases List.mem_singleton.1 later with rfl
      exact set
  obtain ⟨_, _, last, _⟩ :=
    performAll_refines_map emitted Counter.classes Counter.heap fields
  have isLast : FieldWrite.last?
      (Counter.catalog.writes (s.performAll Counter.classes calls Counter.heap).1)
      ⟨0, "Counter"⟩ "count" = some ⟨Counter.count, ⟨0, "Counter"⟩, .int 7⟩ := by
    have writes : ∀ arg, s.perform Counter.classes ⟨1, Counter.counter, arg⟩ =
        Counter.count.write Counter.classes Counter.counter arg :=
      fun arg => perform_write emitted set Counter.classes
    simp only [calls, performAll, writes]
    rfl
  obtain ⟨⟨slot, casts, holds⟩, reads⟩ := last _ _ _ isLast
  cases casts
  exact ⟨holds, reads 0 .null get⟩

end RoutineSet

end BeanDispatch
