import BeanDispatch.Introspection.Scripted
import BeanDispatch.Proofs.BeanEffects
import BeanDispatch.Proofs.KnownClasses
import BeanDispatch.Roster

/-! What scripted bodies can do. A script changes its receiver and makes objects, and a scripted
constructor only makes some: every other object that was there keeps its fields, also if the body
fails, as far as the observer spares it. A script that names known classes only keeps known values
and heaps known, so a table of such scripts is closed and dispatch into it outlasts later
definitions. The observer of a roster touches nothing but the roster, and a number once given
stays. -/

namespace BeanDispatch

variable {ε α β : Type} {t : ClassTable} {observer : Script.Observer} {ref receiver : Ref}
  {args : List Slot}

/-! ### Spared objects -/

namespace Action

/-- An object that is there before the action is there after it with the same fields, whatever the
outcome. -/
def Spares (ref : Ref) (x : Action ε α) : Prop :=
  ∀ h : Heap, ref.id < h.objects.size →
    ref.id < (x h).2.objects.size ∧ (x h).2.fields ref = h.fields ref

theorem Quiet.spares {x : Action ε α} (quiet : x.Quiet) (ref : Ref) : x.Spares ref := by
  intro h old
  rw [quiet h]
  exact ⟨old, rfl⟩

theorem Spares.bind {x : Action ε α} {f : α → Action ε β} (first : x.Spares ref)
    (rest : ∀ a, (f a).Spares ref) : (x >>= f).Spares ref := by
  intro h old
  have spared := first h old
  rcases ran : x h with ⟨e | a, mid⟩
  · rw [ran] at spared
    rw [bind_apply_error f ran]
    exact spared
  · rw [ran] at spared
    rw [bind_apply_ok f ran]
    obtain ⟨there, same⟩ := rest a mid spared.1
    exact ⟨there, same.trans spared.2⟩

theorem Spares.pure (a : α) : (pure a : Action ε α).Spares ref := fun _ old => ⟨old, rfl⟩

theorem Spares.throw (e : ε) : (throw e : Action ε α).Spares ref := fun _ old => ⟨old, rfl⟩

theorem Spares.field? (other : Ref) (name : String) :
    (Action.field? other name : Action ε (Option Slot)).Spares ref := fun _ old => ⟨old, rfl⟩

theorem Spares.heap : (getThe Heap : Action ε Heap).Spares ref := fun _ old => ⟨old, rfl⟩

theorem Spares.allocate (cls : String) (fields : OrderedMap Slot) :
    (Action.allocate cls fields : Action ε Ref).Spares ref := by
  intro h old
  rw [Action.allocate, modifyGet_apply]
  refine ⟨?_, (h.fields_allocate cls fields ref).trans (if_neg (Nat.ne_of_lt old))⟩
  exact Nat.lt_of_lt_of_eq (Nat.lt_succ_of_lt old) (Array.size_push fields).symm

theorem Spares.store {other : Ref} (apart : ref.id ≠ other.id) (name : String) (slot : Slot) :
    (Action.store other name slot : Action ε Bool).Spares ref := by
  intro h old
  rw [store_apply]
  cases done : h.store? other name slot with
  | none => exact ⟨old, rfl⟩
  | some stored =>
    refine ⟨?_, (Heap.fields_store? done ref).trans (if_neg apart)⟩
    rw [Option.getD_some, Heap.size_store? done]
    exact old

theorem Spares.widen {δ : Type} {x : Action δ α} (spares : x.Spares ref) (f : δ → ε) :
    (Action.widen f x).Spares ref := by
  intro h old
  rw [widen_apply]
  exact spares h old

theorem Spares.discard {x : Action ε α} (spares : x.Spares ref) : (discard x).Spares ref :=
  spares.bind fun _ => .pure PUnit.unit

theorem Spares.forM {f : α → Action ε PUnit} (each : ∀ a, (f a).Spares ref) (xs : List α) :
    (xs.forM f).Spares ref := by
  induction xs with
  | nil => exact .pure PUnit.unit
  | cons a rest ih => exact (each a).bind fun _ => ih

theorem Spares.foldlM {f : β → α → Action ε β} (each : ∀ b a, (f b a).Spares ref) (xs : List α)
    (b : β) : (xs.foldlM f b).Spares ref := by
  induction xs generalizing b with
  | nil => exact .pure b
  | cons a rest ih => exact (each b a).bind ih

end Action

namespace Script

theorem makeObject_spares (observes : ∀ made, (observer made).Spares ref) (cls : String)
    (fields : OrderedMap Slot) : (makeObject observer cls fields).Spares ref :=
  (Action.Spares.allocate cls fields).bind fun made => (observes made).bind fun _ => .pure _

theorem runCommand_spares (observes : ∀ made, (observer made).Spares ref)
    (apart : ref.id ≠ receiver.id) (args : List Slot) (command : Command) :
    (runCommand observer receiver args command).Spares ref := by
  cases command with
  | get field => exact (Action.Spares.field? receiver field).bind fun _ => .pure _
  | set field | put field slot =>
    exact (Action.Spares.store apart field _).discard.bind fun _ => .pure _
  | const slot | argument position | receiver => exact .pure _
  | copy field => exact Action.Spares.heap.bind fun h => makeObject_spares observes _ _
  | object cls => exact makeObject_spares observes cls _
  | tick field limit =>
    refine (Action.Spares.field? receiver field).bind fun found => ?_
    exact (Action.Spares.store apart field _).discard.bind fun _ => .pure _
  | fail text => exact .throw _
  | format pieces => exact Action.Spares.heap.bind fun h => .pure _

/-- A script leaves every object alone that was there, but its receiver. -/
theorem native_spares (observes : ∀ made, (observer made).Spares ref)
    (apart : ref.id ≠ receiver.id) (args : List Slot) (commands : List Command) :
    (native observer commands receiver args).Spares ref :=
  Action.Spares.foldlM (fun _ => runCommand_spares observes apart args) commands Slot.null

end Script

namespace ConstructorScript

/-- A scripted constructor leaves every object alone that was there. -/
theorem run_spares (observes : ∀ made, (observer made).Spares ref) (script : ConstructorScript)
    (t : ClassTable) (args : List Value) : (script.run observer t args).Spares ref := by
  cases script with
  | fail text => exact .throw _
  | give value => exact .pure value
  | make cls fields =>
    intro h old
    rcases t.newInstance_outcome cls h with ⟨fault, refused⟩ | made
    · rw [run, Action.bind_apply_error _ refused]
      exact ⟨old, rfl⟩
    · rw [run, Action.bind_apply_ok _ made]
      -- what is stored goes into an object that was not there
      have apart : ref.id ≠ (h.next cls).id := Nat.ne_of_lt old
      have stores := Action.Spares.forM (fun field : String × Nat × TypeName =>
        ((Action.quiet_ofExcept (t.cast (args[field.2.1]?.getD .null) field.2.2)).spares ref).bind
          fun slot => (Action.Spares.store apart field.1 slot).discard) fields
      have rest := (observes (h.next cls)).bind fun _ => stores.bind fun _ =>
        Action.Spares.pure (Value.object (h.next cls))
      have there : ref.id < (t.withNew cls h).objects.size :=
        Nat.lt_of_lt_of_eq (Nat.lt_succ_of_lt old) (t.size_withNew cls h).symm
      obtain ⟨kept, same⟩ := rest (t.withNew cls h) there
      exact ⟨kept, same.trans (t.fields_withNew_old cls old)⟩

end ConstructorScript

theorem Introspection.instantiateWith_spares (i : Introspection ScriptedType)
    (observes : ∀ made, (i.generated.observer made).Spares ref) (options : InstantiateOptions)
    (args : List Value) : (i.instantiateWith options args).Spares ref := by
  rw [instantiateWith]
  split
  · exact .throw _
  · split
    · exact .throw _
    · cases i.firstProblem? options i.constructorArguments args with
      | some problem => exact .throw _
      | none => exact (i.generated.constructor.run_spares observes i.generated.classes args).widen _

/-! ### Tables of scripts -/

namespace ClassTable

/-- All bodies of the table are scripts of commands as allowed. -/
def Scripted (t : ClassTable) (observer : Script.Observer) (allowed : Command → Prop) : Prop :=
  ∀ d ∈ t.defs, ∀ m ∈ d.methods, ∀ body, m.body = some body →
    ∃ commands, (∀ command ∈ commands, allowed command) ∧ body = Script.native observer commands

/-- A call into a table of scripts changes no object that was there but its receiver. -/
theorem Scripted.invoke_spares {allowed : Command → Prop} (scripted : t.Scripted observer allowed)
    (reached : t.Reachable) (observes : ∀ made, (observer made).Spares ref) (kind : CallKind)
    (owner : String) (method : Signature) {receiver : Value} (args : List Slot)
    (apart : ∀ target, receiver = .object target → ref.id ≠ target.id) :
    (t.invoke kind owner method receiver args).Spares ref := by
  intro h old
  rcases t.invoke_heap kind owner method receiver args h with
    kept | ⟨outcome, target, body, isObject, found, ran⟩
  · rw [kept]
    exact ⟨old, rfl⟩
  · obtain ⟨d, member, m, declared, hasBody⟩ := exists_method_of_body? reached found
    obtain ⟨commands, _, rfl⟩ := scripted d member m declared body hasBody
    have spared := Script.native_spares observes (apart target isObject) args commands h old
    rw [ran] at spared
    exact spared

end ClassTable

/-! ### Scripts over known classes -/

namespace Action

theorem Keeps.heap :
    (getThe Heap : Action Fault Heap).Keeps t fun h => h.KnownTo t := by
  intro h found after known ends
  cases ends
  exact ⟨known, known⟩

theorem Keeps.allocate {cls : String} {fields : OrderedMap Slot} (known : t.contains cls = true)
    (knows : ∀ name slot, fields.get? name = some slot → t.Knows slot.boxed) :
    (Action.allocate cls fields : Action Fault Ref).Keeps t
      fun made => t.contains made.cls = true := by
  intro h made after knownHeap ends
  rw [Action.allocate, modifyGet_apply] at ends
  cases ends
  refine ⟨known, fun other name slot present => ?_⟩
  rw [Heap.field?, h.fields_allocate] at present
  split at present
  · exact knows name slot present
  · exact knownHeap other name slot present

theorem Keeps.discard {x : Action Fault α} {expected : α → Prop} (keeps : x.Keeps t expected) :
    (discard x).Keeps t fun _ => True :=
  keeps.bind fun _ _ => .pure trivial

end Action

/-- What the command names is known to the table. -/
def Command.KnownTo (t : ClassTable) : Command → Prop
  | .put _ slot | .const slot => t.Knows slot.boxed
  | .object cls => t.contains cls = true
  | _ => True

/-- The observer keeps heaps known when it learns of an object of a known class. -/
def Script.Observer.Keeps (t : ClassTable) (observer : Script.Observer) : Prop :=
  ∀ made, t.contains made.cls = true → (observer made).Keeps t fun _ => True

namespace Script

theorem makeObject_keeps (observes : Observer.Keeps t observer) {cls : String}
    {fields : OrderedMap Slot} (known : t.contains cls = true)
    (knows : ∀ name slot, fields.get? name = some slot → t.Knows slot.boxed) :
    (makeObject observer cls fields).Keeps t fun slot => t.Knows slot.boxed := by
  refine (Action.Keeps.allocate known knows).bind fun made isKnown => ?_
  exact (observes made isKnown).bind fun _ _ => .pure (ClassTable.knows_object.2 isKnown)

theorem knows_null : t.Knows Slot.null.boxed := nofun

theorem knows_headD (knows : t.KnowsAll args) : t.Knows (args.headD Slot.null).boxed := by
  cases args with
  | nil => exact knows_null
  | cons slot rest => exact knows slot List.mem_cons_self

theorem runCommand_keeps (observes : Observer.Keeps t observer)
    (known : t.contains receiver.cls = true) (knows : t.KnowsAll args) {command : Command}
    (names : command.KnownTo t) :
    (runCommand observer receiver args command).Keeps t fun slot => t.Knows slot.boxed := by
  cases command with
  | get field =>
    refine (Action.Keeps.field? receiver field).bind fun found knowsFound => .pure ?_
    cases found with
    | none => exact knows_null
    | some slot => exact knowsFound slot rfl
  | set field =>
    refine (Action.Keeps.store receiver field (knows_headD knows)).discard.bind fun _ _ => ?_
    exact .pure knows_null
  | put field slot =>
    exact (Action.Keeps.store receiver field names).discard.bind fun _ _ => .pure knows_null
  | const slot => exact .pure names
  | argument position =>
    refine .pure ?_
    cases found : args[position]? with
    | none => exact knows_null
    | some slot => exact knows slot (List.mem_of_getElem? found)
  | receiver => exact .pure (ClassTable.knows_object.2 known)
  | copy field =>
    refine Action.Keeps.heap.bind fun h knownHeap => makeObject_keeps observes known ?_
    intro name slot present
    rw [OrderedMap.replace?] at present
    split at present
    · rw [Option.getD_some, OrderedMap.get?_insert] at present
      split at present
      · cases present
        exact knows_headD knows
      · exact knownHeap receiver name slot present
    · exact knownHeap receiver name slot present
  | object cls => exact makeObject_keeps observes names (by rintro name slot ⟨⟩)
  | tick field limit =>
    refine (Action.Keeps.field? receiver field).bind fun found _ => ?_
    refine (Action.Keeps.store receiver field ?_).discard.bind fun _ _ => .pure ?_
    · rintro made ⟨⟩
    · rintro made ⟨⟩
  | fail text => exact .throw _
  | format pieces =>
    refine Action.Keeps.heap.bind fun h _ => .pure ?_
    rintro made ⟨⟩

/-- With known values around, a script that names known things gives a known one. -/
theorem native_keeps (observes : Observer.Keeps t observer)
    (known : t.contains receiver.cls = true) (knows : t.KnowsAll args) {commands : List Command}
    (names : ∀ command ∈ commands, command.KnownTo t) :
    (native observer commands receiver args).Keeps t fun slot => t.Knows slot.boxed := by
  have started : ∀ last : Slot, t.Knows last.boxed →
      (commands.foldlM (fun _ command => runCommand observer receiver args command)
        last).Keeps t fun slot => t.Knows slot.boxed := by
    induction commands with
    | nil => exact fun last knowsLast => .pure knowsLast
    | cons command rest ih =>
      obtain ⟨first, later⟩ := List.forall_mem_cons.1 names
      exact fun _ _ => (runCommand_keeps observes known knows first).bind (ih later)
  exact started Slot.null knows_null

end Script

/-- Scripts that name known classes only meet what is asked of the bodies of a table that grows. -/
theorem ClassTable.Scripted.closed (scripted : t.Scripted observer (Command.KnownTo t))
    (observes : Script.Observer.Keeps t observer) : t.Closed := by
  intro d member m declared body hasBody ref args known knows
  obtain ⟨commands, names, rfl⟩ := scripted d member m declared body hasBody
  exact Script.native_keeps observes known knows names

/-! ### The roster -/

namespace Roster

theorem observer_apply (made : Ref) (h : Heap) :
    Roster.observer made h = (.ok ⟨⟩, enter h made) := rfl

theorem fields_enter (h : Heap) (made other : Ref) :
    (enter h made).fields other =
      if other.id = self.id ∧ self.id < h.objects.size then
        (h.fields self).insert (toString made.id) (.ref (.object made))
      else h.fields other := by
  by_cases isRoster : other.id = self.id
  · by_cases there : self.id < h.objects.size
    · simp [enter, Heap.fields, isRoster, there, Array.getElem_modify]
    · simp [enter, Heap.fields, isRoster, there]
  · simp [enter, Heap.fields, isRoster, Array.getElem?_modify, Ne.symm isRoster]

theorem observer_spares (apart : ref.id ≠ self.id) (made : Ref) :
    (Roster.observer made).Spares ref := by
  intro h old
  rw [observer_apply]
  refine ⟨Nat.lt_of_lt_of_eq old Array.size_modify.symm, ?_⟩
  exact (fields_enter h made ref).trans (if_neg fun here => apart here.1)

theorem observer_keeps (t : ClassTable) : Script.Observer.Keeps t Roster.observer := by
  intro made isKnown h _ after known ends
  rw [observer_apply] at ends
  cases ends
  refine ⟨trivial, fun other name slot present => ?_⟩
  rw [Heap.field?, fields_enter] at present
  split at present
  · rw [OrderedMap.get?_insert] at present
    split at present
    · cases present
      exact ClassTable.knows_object.2 isKnown
    · exact known self name slot present
  · exact known other name slot present

theorem number_ne_zero_iff (h : Heap) (ref : Ref) :
    number h ref ≠ 0 ↔ toString ref.id ∈ (h.fields self).keys := by
  rw [number]
  cases found : (h.fields self).keys.idxOf? (toString ref.id) with
  | none => simpa using List.idxOf?_eq_none_iff.1 found
  | some position => simpa using List.isSome_idxOf?.1 (Option.isSome_of_eq_some found)

theorem number_enter_ne_zero {h : Heap} (there : self.id < h.objects.size) (ref : Ref) :
    number (enter h ref) ref ≠ 0 := by
  rw [number_ne_zero_iff, fields_enter, if_pos ⟨rfl, there⟩, OrderedMap.keys_insert]
  split
  · assumption
  · exact List.mem_append_right _ List.mem_cons_self

/-- A number once given stays, whatever is entered later. -/
theorem number_enter (h : Heap) (made : Ref) (numbered : number h ref ≠ 0) :
    number (enter h made) ref = number h ref := by
  obtain ⟨position, found⟩ := Option.isSome_iff_exists.1
    (List.isSome_idxOf?.2 ((number_ne_zero_iff h ref).1 numbered))
  have foundLater :
      ((enter h made).fields self).keys.idxOf? (toString ref.id) = some position := by
    rw [fields_enter]
    split
    · rw [OrderedMap.keys_insert]
      split
      · exact found
      · rw [List.idxOf?] at found ⊢
        rw [List.findIdx?_append, found, Option.some_or]
    · exact found
  rw [number, number, found, foundLater]

end Roster

/-- In a table of scripts that name known classes and announce their objects to the roster, dispatch
meets known classes only, and a call changes no object that was there but its receiver and the
roster. -/
theorem ClassTable.Scripted.of_roster
    (scripted : t.Scripted Roster.observer (Command.KnownTo t)) (reached : t.Reachable) :
    t.Closed ∧ ∀ kind owner method receiver args (ref : Ref), ref.id ≠ Roster.self.id →
      (∀ target, receiver = .object target → ref.id ≠ target.id) →
      (t.invoke kind owner method receiver args).Spares ref := by
  refine ⟨scripted.closed (Roster.observer_keeps t), ?_⟩
  intro kind owner method receiver args ref ordinary apart
  have observes := Roster.observer_spares ordinary
  exact scripted.invoke_spares reached observes kind owner method args apart

end BeanDispatch
